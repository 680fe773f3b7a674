import Mathlib.Data.List.Nodup
import HeaderMiner.Proofs.Miner.History
import HeaderMiner.Proofs.Miner.Operations
/-!
# Jobs and their tokens

A job's token stands right under that of the miner, a search's under its job's, and the token of a
search that holds its device under that.  So cancelling one job's token reaches no other job, and
stopping the searches of a backend reaches no job at all; the only way in which a job can be
superseded is to be replaced, or to go down with the miner.

`Ledger s jobs` says this of a state and the jobs that have been taken on until then, and each
operation keeps it.
-/

namespace HeaderMiner.Miner

/-! ## the jobs of a history -/

def Event.job? : Event → Option Job
  | .installed j => some j
  | _ => none

/-- the jobs that have been taken on, in their order -/
def History.jobs {su : Setup} (h : History su) : List Job := h.record.filterMap Event.job?

namespace State

/-- what a loop holds belongs to jobs that have been taken on -/
structure Serves (l : Loop) (jobs : List Job) (next : Nat) : Prop where
  focus : ∀ f, l.focus? = some f → f.job ∈ jobs ∧ f.identity = f.job.identity
  searches : ∀ f, l.focus? = some f → ∀ q ∈ l.searches, ∃ k < next, q.parent = k :: f.job.token

/-- the jobs that have been taken on, and where their tokens stand -/
structure Ledger (s : State) (jobs : List Job) : Prop where
  root : s.shutdown.length = 1
  known : s.tokens.Knows s.shutdown
  sound : s.tokens.Sound
  slot : s.slot = jobs.getLast?
  token : ∀ j ∈ jobs, ∃ n < s.tokens.next, j.token = n :: s.shutdown
  nodup : (jobs.map Job.token).Nodup
  serves : Serves s.loop jobs s.tokens.next
  registered : ∀ r ∈ s.registry.jobs,
    s.tokens.Knows r.2 ∧ ∃ j ∈ jobs, ∃ a b, r.2 = a :: b :: j.token
  superseded : ∀ j ∈ jobs, s.isSuperseded j = true ↔ s.slot ≠ some j ∨ s.isStopped = true

variable {su : Setup} {s t : State} {jobs : List Job}

/-! ## loops -/

theorem Serves.mono {l : Loop} {jobs' : List Job} {n n' : Nat} (w : Serves l jobs n)
    (hj : jobs ⊆ jobs') (hn : n ≤ n') : Serves l jobs' n' := by
  constructor
  · intro f hf
    obtain ⟨hm, hi⟩ := w.focus f hf
    exact ⟨hj hm, hi⟩
  · intro f hf q hq
    obtain ⟨k, hk, hp⟩ := w.searches f hf q hq
    exact ⟨k, Nat.lt_of_lt_of_le hk hn, hp⟩

theorem Serves.idle {l : Loop} {n : Nat} (hl : l.focus? = none) : Serves l jobs n := by
  constructor
  · intro f hf
    rw [hl] at hf
    cases hf
  · intro f hf
    rw [hl] at hf
    cases hf

/-- a loop that goes on between two rounds keeps its focus and holds no searches -/
theorem Serves.between {l l' : Loop} {n : Nat} (w : Serves l jobs n)
    (hf : l'.focus? = l.focus?) (hs : l'.searches = []) : Serves l' jobs n := by
  constructor
  · intro f hl
    exact w.focus f (hf ▸ hl)
  · intro f _ q hq
    rw [hs] at hq
    cases hq

theorem Serves.set {f : Focus} {n k i : Nat} {qs : List Search} {q : Search}
    (w : Serves (.round f n qs) jobs k) (hq : qs[i]? = some q) (phase : Phase) :
    Serves (.round f n (qs.set i { q with phase })) jobs k := by
  constructor
  · exact w.focus
  · intro g hg r hr
    rcases List.mem_or_eq_of_mem_set hr with hr | rfl
    · exact w.searches g hg r hr
    · exact w.searches g hg q (List.mem_of_getElem? hq)

/-! ## what cancelling reaches -/

theorem Ledger.length_token (l : Ledger s jobs) {j : Job} (hj : j ∈ jobs) : j.token.length = 2 := by
  obtain ⟨n, _, hn⟩ := l.token j hj
  rw [hn, List.length_cons, l.root]

theorem Ledger.mem_of_slot (l : Ledger s jobs) {j : Job} (h : s.slot = some j) : j ∈ jobs :=
  List.mem_of_getLast? (l.slot ▸ h)

theorem Ledger.eq_of_token (l : Ledger s jobs) {i j : Job} (hi : i ∈ jobs) (hj : j ∈ jobs)
    (h : i.token = j.token) : i = j := List.inj_on_of_nodup_map l.nodup hi hj h

theorem Ledger.shutdown_suffix (l : Ledger s jobs) {j : Job} (hj : j ∈ jobs) :
    s.shutdown <:+ j.token := by
  obtain ⟨n, _, hn⟩ := l.token j hj
  rw [hn]
  exact List.suffix_cons ..

/-- stopping the searches of the backend reaches no job and not the miner -/
theorem Ledger.isCancelled_stopAll (l : Ledger s jobs) {ts : Tokens} {t : Token}
    (ht : t.length ≤ 2) : (s.registry.stopAll ts).isCancelled t = ts.isCancelled t := by
  rw [Bool.eq_iff_iff, Registry.isCancelled_stopAll_iff]
  refine or_iff_right ?_
  rintro ⟨r, hr, hs⟩
  obtain ⟨_, j, hj, a, b, he⟩ := l.registered r hr
  have hl : r.2.length ≤ t.length := hs.length_le
  rw [he, List.length_cons, List.length_cons, l.length_token hj] at hl
  omega

/-! ## operations -/

/-- what touches neither slot nor tokens nor registry keeps the ledger -/
theorem Ledger.frame (l : Ledger s jobs) (ht : t.tokens = s.tokens) (hd : t.shutdown = s.shutdown)
    (hs : t.slot = s.slot) (hr : ∀ r ∈ t.registry.jobs, r ∈ s.registry.jobs)
    (hw : Serves t.loop jobs s.tokens.next) : Ledger t jobs where
  root := hd ▸ l.root
  known := ht ▸ hd ▸ l.known
  sound := ht ▸ l.sound
  slot := hs ▸ l.slot
  token := ht ▸ hd ▸ l.token
  nodup := l.nodup
  serves := ht ▸ hw
  registered := fun r h => ht ▸ l.registered r (hr r h)
  superseded := by
    intro j hj
    rw [isSuperseded, isStopped, ht, hd, hs]
    exact l.superseded j hj

theorem Ledger.without (l : Ledger s jobs) (q : Inquiry) : Ledger (s.without q) jobs :=
  l.frame rfl rfl rfl (fun _ h => h) l.serves

theorem Ledger.stopAll (l : Ledger s jobs) : Ledger s.stopAll jobs where
  root := l.root
  known := l.known.mono (Nat.le_of_eq (Registry.next_stopAll ..).symm)
  sound := Registry.sound_stopAll l.sound fun r hr => (l.registered r hr).1
  slot := l.slot
  token := by
    show ∀ j ∈ jobs, ∃ n < (s.registry.stopAll s.tokens).next, _
    rw [Registry.next_stopAll]
    exact l.token
  nodup := l.nodup
  serves := l.serves.mono (fun _ h => h) (Nat.le_of_eq (Registry.next_stopAll ..).symm)
  registered := by
    intro r hr
    obtain ⟨hk, hj⟩ := l.registered r hr
    exact ⟨hk.mono (Nat.le_of_eq (Registry.next_stopAll ..).symm), hj⟩
  superseded := by
    intro j hj
    show (s.registry.stopAll s.tokens).isCancelled j.token = true ↔
      _ ∨ (s.registry.stopAll s.tokens).isCancelled s.shutdown = true
    rw [l.isCancelled_stopAll (Nat.le_of_eq (l.length_token hj)),
      l.isCancelled_stopAll (l.root ▸ Nat.le_succ 1)]
    exact l.superseded j hj

/-- stopping the miner reaches all its jobs -/
theorem Ledger.cancel (l : Ledger s jobs) :
    Ledger { s with tokens := s.tokens.cancel s.shutdown } jobs where
  root := l.root
  known := l.known
  sound := l.sound.cancel l.known
  slot := l.slot
  token := l.token
  nodup := l.nodup
  serves := l.serves
  registered := l.registered
  superseded := by
    intro j hj
    obtain ⟨n, _, hn⟩ := l.token j hj
    have h1 : (s.tokens.cancel s.shutdown).isCancelled j.token = true :=
      Tokens.isCancelled_cancel_iff.2 (.inl (hn ▸ List.suffix_cons ..))
    have h2 : (s.tokens.cancel s.shutdown).isCancelled s.shutdown = true :=
      Tokens.isCancelled_cancel_iff.2 (.inl (List.suffix_refl _))
    exact iff_of_true h1 (.inr h2)

theorem Ledger.stop (l : Ledger s jobs) : Ledger s.stop jobs := l.cancel.stopAll

theorem Ledger.fail (l : Ledger s jobs) (e : Error) : Ledger (s.fail e) jobs := by
  have h : Ledger { s with fatal := s.fatal.or (some e) } jobs :=
    l.frame rfl rfl rfl (fun _ h => h) l.serves
  exact h.stop

theorem Ledger.resume (l : Ledger s jobs) (a : Asker) : Ledger (s.resume a) jobs := by
  obtain ⟨run, loop, he, hl⟩ := resume_eq s a
  rw [he]
  refine l.frame rfl rfl rfl (fun _ h => h) ?_
  show Serves loop jobs s.tokens.next
  rcases hl with rfl | ⟨f, hf, rfl⟩
  · exact l.serves
  · exact l.serves.between (by rw [hf]; rfl) rfl

/-! ## the replacement of a job -/

/-- a job that is not in the slot yet has a token of its own, and nothing about it is cancelled
unless the miner has been stopped -/
structure Incoming (s : State) (jobs : List Job) (j : Job) : Prop where
  token : ∃ n < s.tokens.next, j.token = n :: s.shutdown
  other : ∀ i ∈ jobs, i.token ≠ j.token
  alive : s.isSuperseded j = true ↔ s.isStopped = true
  clear : ∀ c ∈ s.tokens.cancelled, j.token <:+ c → s.isStopped = true

theorem Ledger.child (l : Ledger s jobs) :
    Ledger { s with tokens := (s.tokens.child s.shutdown).2 } jobs where
  root := l.root
  known := l.known.mono (Nat.le_succ _)
  sound := l.sound.child s.shutdown
  slot := l.slot
  token := by
    intro j hj
    obtain ⟨n, hn, ht⟩ := l.token j hj
    exact ⟨n, Nat.lt_succ_of_lt hn, ht⟩
  nodup := l.nodup
  serves := l.serves.mono (fun _ h => h) (Nat.le_succ _)
  registered := by
    intro r hr
    obtain ⟨hk, hj⟩ := l.registered r hr
    exact ⟨hk.mono (Nat.le_succ _), hj⟩
  superseded := l.superseded

theorem Ledger.incoming (l : Ledger s jobs) (w : Work) :
    Incoming { s with tokens := (s.tokens.child s.shutdown).2 } jobs (s.jobOf w) where
  token := ⟨_, Nat.lt_succ_self _, rfl⟩
  other := by
    intro i hi he
    obtain ⟨n, hn, ht⟩ := l.token i hi
    rw [ht] at he
    exact Nat.ne_of_lt hn (List.cons.inj he).1
  alive := Bool.eq_iff_iff.1 (Tokens.isCancelled_child_self l.sound s.shutdown)
  clear := by
    intro c hc hs
    have hn : s.tokens.next < s.tokens.next := l.sound c hc _ (hs.subset List.mem_cons_self)
    exact absurd hn (Nat.lt_irrefl _)

theorem Ledger.length_incoming (l : Ledger s jobs) {j : Job} (v : Incoming s jobs j) :
    j.token.length = 2 := by
  obtain ⟨n, _, ht⟩ := v.token
  rw [ht, List.length_cons, l.root]

/-- no token of another job is above that of a new one, nor above that of the miner -/
theorem Ledger.not_suffix (l : Ledger s jobs) {i : Job} (hi : i ∈ jobs) :
    ¬ i.token <:+ s.shutdown ∧ ∀ j, Incoming s jobs j → ¬ i.token <:+ j.token := by
  constructor
  · intro hs
    have hl : i.token.length ≤ s.shutdown.length := hs.length_le
    rw [l.length_token hi, l.root] at hl
    omega
  · intro j v hs
    have hl : i.token.length = j.token.length := by
      rw [l.length_token hi, l.length_incoming v]
    exact v.other i hi (hs.eq_of_length hl)

/-- replacing a job supersedes it and no other -/
theorem Ledger.succeed (l : Ledger s jobs) {j : Job} (v : Incoming s jobs j) :
    Ledger { s with slot := some j, tokens := retire s.slot s.tokens } (jobs ++ [j]) := by
  have hn : (retire s.slot s.tokens).next = s.tokens.next := next_retire ..
  have mono {t : Token} (h : s.tokens.Knows t) : (retire s.slot s.tokens).Knows t :=
    h.mono (Nat.le_of_eq hn.symm)
  have old {t : Token} (h : ∀ i ∈ jobs, ¬ i.token <:+ t) :
      (retire s.slot s.tokens).isCancelled t = true ↔ s.tokens.isCancelled t = true := by
    rw [isCancelled_retire_iff]
    refine or_iff_right ?_
    rintro ⟨i, hi, hs⟩
    exact h i (l.mem_of_slot hi) hs
  constructor
  · exact l.root
  · exact mono l.known
  · intro c hc
    rcases mem_cancelled_retire.1 hc with ⟨i, hi, rfl⟩ | hc
    · obtain ⟨n, hk, ht⟩ := l.token i (l.mem_of_slot hi)
      rw [ht]
      refine mono ?_
      intro k hm
      rcases List.mem_cons.1 hm with rfl | hm
      · exact hk
      · exact l.known k hm
    · exact mono (l.sound c hc)
  · exact List.getLast?_concat.symm
  · show ∀ i ∈ jobs ++ [j], ∃ n < (retire s.slot s.tokens).next, i.token = n :: s.shutdown
    rw [hn]
    intro i hi
    rcases List.mem_append.1 hi with hi | hi
    · exact l.token i hi
    · rw [List.mem_singleton.1 hi]
      exact v.token
  · rw [List.map_append, List.map_singleton, List.nodup_append]
    refine ⟨l.nodup, List.nodup_singleton _, ?_⟩
    intro a ha b hb
    obtain ⟨i, hi, rfl⟩ := List.mem_map.1 ha
    obtain rfl := List.mem_singleton.1 hb
    exact v.other i hi
  · exact l.serves.mono (List.subset_append_left ..) (Nat.le_of_eq hn.symm)
  · intro r hr
    obtain ⟨hk, i, hi, a, b, he⟩ := l.registered r hr
    exact ⟨mono hk, i, List.mem_append_left _ hi, a, b, he⟩
  · intro i hi
    show (retire s.slot s.tokens).isCancelled i.token = true ↔
      some j ≠ some i ∨ (retire s.slot s.tokens).isCancelled s.shutdown = true
    rw [old fun i hi => (l.not_suffix hi).1]
    rcases List.mem_append.1 hi with hi | hi
    · have hne : some j ≠ some i := by
        intro he
        rw [Option.some.inj he] at v
        exact v.other i hi rfl
      refine iff_of_true (isCancelled_retire_iff.2 ?_) (.inl hne)
      by_cases hs : s.slot = some i
      · exact .inl ⟨i, hs, List.suffix_refl _⟩
      · exact .inr ((l.superseded i hi).2 (.inl hs))
    · obtain rfl := List.mem_singleton.1 hi
      rw [old fun i hi => (l.not_suffix hi).2 _ v]
      exact v.alive.trans (or_iff_right fun h => h rfl).symm

theorem Ledger.seated (l : Ledger s jobs) (w : Work) (clock : Int) :
    Ledger (s.seated w clock) (jobs ++ [s.jobOf w]) := by
  have hj : s.stopAll.jobOf w = s.jobOf w := by
    show (⟨w, (s.registry.stopAll s.tokens).next :: s.shutdown⟩ : Job) = _
    rw [Registry.next_stopAll]
    rfl
  have h : Ledger { s with slot := some (s.jobOf w), tokens := s.relieved } (jobs ++ [s.jobOf w]) :=
    hj ▸ l.stopAll.child.succeed (l.stopAll.incoming w)
  exact h.frame rfl rfl rfl (fun _ h => h) h.serves

theorem Ledger.isCancelled_relieved_root (l : Ledger s jobs) :
    s.relieved.isCancelled s.shutdown = s.isStopped := by
  rw [Bool.eq_iff_iff, isCancelled_relieved_iff, l.isCancelled_stopAll (l.root ▸ Nat.le_succ 1)]
  refine or_iff_right ?_
  rintro ⟨old, ho, hs⟩
  exact (l.not_suffix (l.mem_of_slot ho)).1 hs

/-- a new job is superseded from birth exactly if the miner has been stopped -/
theorem Ledger.isCancelled_relieved_new (l : Ledger s jobs) (w : Work) :
    s.relieved.isCancelled (s.jobOf w).token = s.isStopped := by
  rw [← l.isCancelled_relieved_root, Bool.eq_iff_iff]
  have h := (l.seated w 0).superseded (s.jobOf w)
    (List.mem_append_right _ (List.mem_singleton_self _))
  exact h.trans (or_iff_right fun h => h rfl)

/-- taking on new work supersedes the job in the slot and no other -/
theorem Ledger.isCancelled_relieved_old (l : Ledger s jobs) {j : Job} (hj : j ∈ jobs) :
    s.relieved.isCancelled j.token = true := by
  rw [isCancelled_relieved_iff, l.isCancelled_stopAll (Nat.le_of_eq (l.length_token hj))]
  by_cases hs : s.slot = some j
  · exact .inl ⟨j, hs, List.suffix_refl _⟩
  · exact .inr ((l.superseded j hj).2 (.inl hs))

theorem Ledger.launch (l : Ledger s jobs) : Ledger s.launch.1 jobs := by
  rcases (launch_eq s).2 with ⟨he, _⟩ | ⟨he, _⟩
  · rw [he]
    exact l
  · rw [he]
    exact l.frame rfl rfl rfl (fun _ h => h) (.idle rfl)

theorem Ledger.install (l : Ledger s jobs) (w : Work) (clock : Int) :
    Ledger (s.install w clock).1 (jobs ++ [s.jobOf w]) := by
  rw [install_eq]
  exact (l.seated w clock).launch

theorem Ledger.dispatch (l : Ledger s jobs) {f : Focus} (hf : f.job ∈ jobs)
    (hi : f.identity = f.job.identity) (m : Moment) : Ledger (s.dispatch su f m).1 jobs := by
  have he : (s.dispatch su f m).1.tokens = { s.tokens with
      next := s.tokens.next + (su.plan.requests f.header f.job.work.target m.tails).length } :=
    Search.tokens_ofRequests ..
  have hn : s.tokens.next ≤ (s.dispatch su f m).1.tokens.next := by
    rw [he]
    exact Nat.le_add_right _ _
  constructor
  · exact l.root
  · exact l.known.mono hn
  · rw [he]
    exact fun c hc => (l.sound c hc).mono (Nat.le_add_right _ _)
  · exact l.slot
  · intro j hj
    obtain ⟨n, hk, ht⟩ := l.token j hj
    exact ⟨n, Nat.lt_of_lt_of_le hk hn, ht⟩
  · exact l.nodup
  · constructor
    · intro g hg
      obtain rfl := Option.some.inj hg
      exact ⟨hf, hi⟩
    · intro g hg q hq
      obtain rfl := Option.some.inj hg
      rw [he]
      exact Search.parent_ofRequests hq
  · intro r hr
    obtain ⟨hk, hj⟩ := l.registered r hr
    exact ⟨hk.mono hn, hj⟩
  · intro j hj
    rw [isSuperseded, isStopped, he]
    exact l.superseded j hj

theorem Ledger.begin (l : Ledger s jobs) {f : Focus} {n i : Nat} {qs : List Search} {q : Search}
    {token : Token} {registry : Registry} {tokens : Tokens} (hl : s.loop = .round f n qs)
    (hq : qs[i]? = some q)
    (hs : s.registry.start s.tokens q.request.device q.parent = .ok (token, registry, tokens)) :
    Ledger { s with
      registry, tokens, loop := .round f n (qs.set i { q with phase := .running token }) }
      jobs := by
  obtain ⟨_, rfl, rfl, rfl⟩ := Registry.start_eq_ok_iff.1 hs
  have hw : Serves (.round f n qs) jobs s.tokens.next := hl ▸ l.serves
  obtain ⟨hf, _⟩ := hw.focus f rfl
  obtain ⟨k, hk, hp⟩ := hw.searches f rfl q (List.mem_of_getElem? hq)
  obtain ⟨j, hj, ht⟩ := l.token f.job hf
  have hkp : s.tokens.Knows q.parent := by
    intro a ha
    rw [hp, ht] at ha
    rcases List.mem_cons.1 ha with rfl | ha
    · exact hk
    rcases List.mem_cons.1 ha with rfl | ha
    · exact hj
    · exact l.known a ha
  have hn : s.tokens.next ≤ (s.tokens.child q.parent).2.next := Nat.le_succ _
  constructor
  · exact l.root
  · exact l.known.mono hn
  · exact l.sound.child q.parent
  · exact l.slot
  · intro i hi
    obtain ⟨a, ha, hta⟩ := l.token i hi
    exact ⟨a, Nat.lt_of_lt_of_le ha hn, hta⟩
  · exact l.nodup
  · exact (hw.set hq (.running _)).mono (fun _ h => h) hn
  · intro r hr
    rcases List.mem_append.1 hr with hr | hr
    · obtain ⟨hkr, hjr⟩ := l.registered r hr
      exact ⟨hkr.mono hn, hjr⟩
    · obtain rfl := List.mem_singleton.1 hr
      exact ⟨hkp.child, f.job, hf, s.tokens.next, k, by rw [← hp]; rfl⟩
  · exact l.superseded

/-- a job that the loop turns to is in the slot or was the loop's before -/
theorem Ledger.turnTo (l : Ledger s jobs) {f : Focus} (hl : s.loop = .ready f) :
    (f.turnTo s.slot).job ∈ jobs ∧ (f.turnTo s.slot).identity = (f.turnTo s.slot).job.identity := by
  rw [Focus.turnTo_identity, Focus.turnTo_job]
  refine ⟨?_, rfl⟩
  cases hs : s.slot with
  | none => exact (l.serves.focus f (by rw [hl]; rfl)).1
  | some j => exact l.mem_of_slot hs

/-! ## steps and histories -/

theorem jobs_install (q : Inquiry) (w : Work) (clock : Int) (o : Except Error Outcome) :
    (((s.without q).install w clock).2 ++ [Event.answered q.id q.asker o]).filterMap Event.job? =
      [s.jobOf w] := by
  rw [install_eq]
  rcases (launch_eq ((s.without q).seated w clock)).2 with ⟨he, _⟩ | ⟨he, _⟩
  · rw [he]
    rfl
  · rw [he]
    rfl

theorem Ledger.quiet {s : State} (l : Ledger s jobs) : Ledger s (jobs ++ []) := by
  rwa [List.append_nil]

theorem Ledger.step (l : Ledger s jobs) {m : Move} {es : List Event}
    (ht : Transition su s m t es) : Ledger t (jobs ++ es.filterMap Event.job?) := by
  have same : ∀ r ∈ s.registry.jobs, r ∈ s.registry.jobs := fun _ h => h
  cases ht with
  | tick | poll | startRun | fire | endRun => exact .quiet (l.frame rfl rfl rfl same l.serves)
  | @keep _ _ _ q _ _ _ _ => exact .quiet ((l.without q).resume q.asker)
  | @fail _ _ _ q e _ _ _ _ => exact .quiet (((l.without q).fail e).resume q.asker)
  | @install _ _ clock q w _ _ =>
    rw [jobs_install]
    exact ((l.without q).install w clock).resume q.asker
  | enter _ slot =>
    refine .quiet (l.frame rfl rfl rfl same ?_)
    constructor
    · intro f hf
      obtain rfl := Option.some.inj hf
      exact ⟨l.mem_of_slot slot, rfl⟩
    · intro f _ q hq
      cases hq
  | miss | finish | overrun | misfit => exact .quiet (l.frame rfl rfl rfl same (.idle rfl))
  | @dispatch f m header _ loop _ _ =>
    obtain ⟨hf, hi⟩ := l.turnTo loop
    let g : Focus := { f.turnTo s.slot with header }
    have hd : Ledger (s.dispatch su g m).1 jobs := l.dispatch (f := g) hf hi m
    exact .quiet hd
  | reject loop search =>
    have hw : Serves _ jobs s.tokens.next := loop ▸ l.serves
    exact .quiet (l.frame rfl rfl rfl same (hw.set search _))
  | begin loop search _ _ started => exact .quiet (l.begin loop search started)
  | release loop search =>
    have hw : Serves _ jobs s.tokens.next := loop ▸ l.serves
    exact .quiet (l.frame rfl rfl rfl (fun r hr => (Registry.mem_release.1 hr).1) (hw.set search _))
  | pause loop | pass loop | submit loop | endPause loop | inquire loop | goOn loop =>
    exact .quiet (l.frame rfl rfl rfl same (l.serves.between (by rw [loop]; rfl) rfl))
  | stop => exact .quiet l.stop
  | leaveRun => exact .quiet (l.stop.frame rfl rfl rfl (fun _ h => h) l.stop.serves)

theorem ledger_fresh : Ledger fresh [] where
  root := rfl
  known := by
    intro n hn
    obtain rfl := List.mem_singleton.1 hn
    exact Nat.zero_lt_one
  sound := fun _ hc => nomatch hc
  slot := rfl
  token := fun _ hj => nomatch hj
  nodup := List.nodup_nil
  serves := .idle rfl
  registered := fun _ hr => nomatch hr
  superseded := fun _ hj => nomatch hj

end State

variable {su : Setup}

theorem History.jobs_extend {h : History su} {m : Move} {t : State} {es : List Event}
    (hs : h.state.step su m = some (t, es)) :
    (h.extend m t es hs).jobs = h.jobs ++ es.filterMap Event.job? := List.filterMap_append ..

theorem History.ledger (h : History su) : State.Ledger h.state h.jobs := by
  induction h using History.induction with
  | start => exact State.ledger_fresh
  | extend h m t es hs ih =>
    rw [jobs_extend]
    exact ih.step (State.transition_of_step hs)

end HeaderMiner.Miner
