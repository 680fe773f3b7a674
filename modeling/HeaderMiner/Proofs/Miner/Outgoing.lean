import HeaderMiner.Proofs.Miner.Assertions
import HeaderMiner.Proofs.Miner.Handover
import HeaderMiner.Proofs.Miner.Supersession
import HeaderMiner.Proofs.Miner.Trial
/-!
# What a handover stops

When the searches of the backend are stopped, all that are running belong to jobs that are on their
way out, as no round on the new job can begin before the slot is free again.  Whatever begins in
between on the outgoing job stands under a token that is about to be cancelled, so it does not
matter that it comes too late to be stopped with the others.

While a handover is under way the others still see the miner with its outgoing job
(`Scene.before`), and of that miner the ledger holds.  When the outgoing job is cancelled the ledger
holds of the miner with its new job (`State.Ledger.succeed`).
-/

namespace HeaderMiner.Miner

/-- a search that holds its device has a token right under its own -/
def Loop.Holds (l : Loop) : Prop :=
  ∀ q ∈ l.searches, ∀ t, q.phase = .running t → ∃ n, t = n :: q.parent

theorem Loop.Holds.mono {l l' : Loop} (v : l.Holds) (h : l'.searches ⊆ l.searches) : l'.Holds :=
  fun q hq => v q (h hq)

namespace State

variable {su : Setup} {s t : State} {m : Move} {es : List Event} {jobs : List Job}

theorem holds_step (v : s.loop.Holds) (ht : Transition su s m t es) : t.loop.Holds := by
  intro p hp k hk
  rcases mem_searches_step ht hp with hp | hw | ⟨q, _, phase, rfl, he | hr | ⟨i, r, rfl, he⟩⟩
  · exact v p hp k hk
  · rw [hw] at hk
    cases hk
  · obtain ⟨e, rfl, _⟩ := he
    cases hk
  · obtain ⟨n, rfl⟩ := hr
    exact ⟨n, (Phase.running.inj hk).symm⟩
  · cases he.symm.trans hk

/-- what a step does to the tokens that leaves the slot alone: only a stop cancels any -/
structure Grows (s t : State) : Prop where
  shutdown : t.shutdown = s.shutdown
  next : s.tokens.next ≤ t.tokens.next
  cancelled : ∀ c ∈ t.tokens.cancelled, c ∈ s.tokens.cancelled ∨ t.isStopped = true

theorem Grows.refl (s : State) : Grows s s := ⟨rfl, Nat.le_refl _, fun _ => .inl⟩

theorem Grows.congr {u : State} (v : Grows s t) (hd : u.shutdown = t.shutdown)
    (ht : u.tokens = t.tokens) : Grows s u where
  shutdown := hd.trans v.shutdown
  next := by
    rw [ht]
    exact v.next
  cancelled := by
    rw [isStopped, hd, ht]
    exact v.cancelled

theorem Grows.resume (v : Grows s t) (a : Asker) : Grows s (t.resume a) :=
  v.congr (frame_resume State.shutdown (fun _ _ _ => rfl) t a)
    (frame_resume State.tokens (fun _ _ _ => rfl) t a)

theorem Grows.stop (s : State) : Grows s s.stop where
  shutdown := rfl
  next := by
    show s.tokens.next ≤ (s.registry.stopAll (s.tokens.cancel s.shutdown)).next
    rw [Registry.next_stopAll]
    exact Nat.le_refl _
  cancelled := fun _ _ => .inr (isStopped_stop s)

theorem Ledger.slot_install (l : Ledger s jobs) (q : Inquiry) (w : Work) (clock : Int) :
    (((s.without q).install w clock).1.resume q.asker).slot ≠ s.slot := by
  obtain ⟨mining, loop, he⟩ := exists_install (s.without q) w clock
  rw [slot_resume, he]
  intro (hs : some (s.jobOf w) = s.slot)
  obtain ⟨n, hn, ht⟩ := l.token (s.jobOf w) (l.mem_of_slot hs.symm)
  exact Nat.ne_of_gt hn (List.cons.inj ht).1

theorem Ledger.grows (l : Ledger s jobs) (ht : Transition su s m t es) (hs : t.slot = s.slot) :
    Grows s t := by
  cases ht with
  | @keep _ _ _ q _ _ _ _ =>
    have h : Grows s (s.without q) := (Grows.refl s).congr rfl rfl
    exact h.resume q.asker
  | @fail _ _ _ q e _ _ _ _ =>
    have h : Grows s ((s.without q).fail e) := (Grows.stop s).congr rfl rfl
    exact h.resume q.asker
  | @install _ _ clock q w _ _ => exact absurd hs (l.slot_install q w clock)
  | stop => exact .stop s
  | leaveRun => exact (Grows.stop s).congr rfl rfl
  | dispatch =>
    refine ⟨rfl, ?_, ?_⟩
    · show _ ≤ (Search.ofRequests ..).2.next
      rw [Search.tokens_ofRequests]
      exact Nat.le_add_right _ _
    · intro c (hc : c ∈ (Search.ofRequests ..).2.cancelled)
      rw [Search.tokens_ofRequests] at hc
      exact .inl hc
  | begin _ _ _ _ started =>
    obtain ⟨_, rfl, rfl, rfl⟩ := Registry.start_eq_ok_iff.1 started
    exact ⟨rfl, Nat.le_succ _, fun _ => .inl⟩
  | _ => exact (Grows.refl s).congr rfl rfl

theorem Ledger.still (l : Ledger s jobs) (ht : Transition su s m t es) (hs : t.slot = s.slot) :
    Ledger t jobs := by
  have he : es.filterMap Event.job? = [] := by
    cases ht with
    | @install _ _ clock q w _ _ => exact absurd hs (l.slot_install q w clock)
    | _ => rfl
  have h : Ledger t (jobs ++ es.filterMap Event.job?) := l.step ht
  rwa [he, List.append_nil] at h

theorem Incoming.grow {j : Job} (v : Incoming s jobs j) (g : Grows s t)
    (stays : s.isStopped = true → t.isStopped = true) : Incoming t jobs j where
  token := by
    obtain ⟨n, hn, ht⟩ := v.token
    rw [g.shutdown]
    exact ⟨n, Nat.lt_of_lt_of_le hn g.next, ht⟩
  other := v.other
  alive := by
    obtain ⟨n, _, ht⟩ := v.token
    constructor
    · intro hc
      obtain ⟨c, hc, hs⟩ := (Tokens.isCancelled_iff ..).1 hc
      rcases g.cancelled c hc with hc | hst
      · exact stays (v.alive.1 ((Tokens.isCancelled_iff ..).2 ⟨c, hc, hs⟩))
      · exact hst
    · intro hst
      refine Tokens.isCancelled_of_suffix hst ?_
      rw [g.shutdown, ht]
      exact List.suffix_cons ..
  clear := by
    intro c hc hs
    rcases g.cancelled c hc with hc | hst
    · exact stays (v.clear c hc hs)
    · exact hst

end State

namespace Scene

variable {su : Setup} {a b c d : Scene} {s t : State} {m : Move} {es : List Event}
  {stage : Stage} {q : Inquiry} {w : Work} {clock : Int} {jobs : List Job}

/-! ## the order of a handover -/

/-- the job that a handover lets the others see -/
def shown (stage : Stage) (slot : Option Job) : Option Job :=
  match stage with
  | .replaced _ outgoing => outgoing
  | _ => slot

/-- the miner as the others see it -/
def before (c : Scene) : State := { c.state with slot := shown c.stage c.state.slot }

/-- what is known of jobs and tokens in the midst of a handover -/
structure Orderly (c : Scene) (jobs : List Job) : Prop where
  ledger : State.Ledger c.before jobs
  incoming : ∀ q outgoing, c.stage = .replaced q outgoing →
    ∃ j, c.state.slot = some j ∧ State.Incoming c.state jobs j
  reach : ∀ t ∈ c.state.tokens.cancelled, ∀ j ∈ jobs, j.token <:+ t →
    c.state.isSuperseded j = true ∨ c.leaving = some j
  holds : c.state.loop.Holds

theorem orderly_start : Orderly start [] where
  ledger := State.ledger_fresh
  incoming := nofun
  reach := nofun
  holds := nofun

/-- what leaves the slot alone and does not look at it is a step of the miner that the others see -/
theorem step_before (step : s.step su m = some (t, es)) (slot : t.slot = s.slot)
    (blind : stage = .free ∨ s.Blind su m) :
    (before ⟨s, stage⟩).step su m = some (before ⟨t, stage⟩, es) ∧
      (before ⟨t, stage⟩).slot = (before ⟨s, stage⟩).slot := by
  -- only in this stage do the others see another slot than the state has
  cases stage with
  | replaced q outgoing =>
    have hb : s.Blind su m := blind.resolve_left nofun
    refine ⟨(hb outgoing).trans ?_, rfl⟩
    rw [step]
    rfl
  | _ => exact ⟨step, slot⟩

theorem Orderly.move (v : Orderly ⟨s, stage⟩ jobs) (step : s.step su m = some (t, es))
    (slot : t.slot = s.slot) (blind : stage = .free ∨ s.Blind su m) :
    Orderly ⟨t, stage⟩ jobs := by
  obtain ⟨hs, hk⟩ := step_before step slot blind
  have ht := State.transition_of_step hs
  have l : State.Ledger (before ⟨t, stage⟩) jobs := v.ledger.still ht hk
  have g : State.Grows s t := by
    have h := v.ledger.grows ht hk
    exact ⟨h.shutdown, h.next, h.cancelled⟩
  have stays {k : Token} (hc : s.tokens.isCancelled k = true) : t.tokens.isCancelled k = true :=
    State.isCancelled_step (s := before ⟨s, stage⟩) (t := before ⟨t, stage⟩) hc ht
  refine ⟨l, ?_, ?_, State.holds_step v.holds (State.transition_of_step step)⟩
  · intro q outgoing he
    obtain ⟨j, hj, hv⟩ := v.incoming q outgoing he
    refine ⟨j, slot.trans hj, hv.grow g ?_⟩
    intro hst
    rw [State.isStopped, g.shutdown]
    exact stays hst
  · intro c hc j hj hsuf
    rcases g.cancelled c hc with hc | hst
    · rcases v.reach c hc j hj hsuf with h | h
      · exact .inl (stays h)
      · refine .inr ?_
        cases stage with
        | silenced => exact slot.trans h
        | _ => exact h
    · exact .inl ((l.superseded j hj).2 (.inr hst))

theorem Orderly.lock (v : Orderly ⟨s, .free⟩ jobs) (q : Inquiry) (w : Work) (clock : Int) :
    Orderly ⟨s.without q, .locked q w clock⟩ jobs where
  ledger := v.ledger.without q
  incoming := nofun
  reach := v.reach
  holds := v.holds

/-- all that is running belongs to a job that is superseded already, or is in the slot -/
theorem Orderly.silence (v : Orderly ⟨s, .locked q w clock⟩ jobs) (offset : Int) :
    Orderly ⟨{ s with offset }.stopAll, .silenced q w⟩ jobs := by
  have l : State.Ledger s jobs := v.ledger
  have lo : State.Ledger { s with offset } jobs := l.frame rfl rfl rfl (fun _ h => h) l.serves
  have stays {j : Job} (hc : s.isSuperseded j = true) :
      { s with offset }.stopAll.isSuperseded j = true :=
    Registry.isCancelled_stopAll_iff.2 (.inr hc)
  refine ⟨lo.stopAll, nofun, ?_, v.holds⟩
  intro c hc j hj hs
  rcases Registry.mem_cancelled_stopAll.1 hc with ⟨r, hr, rfl⟩ | hc
  · -- two jobs above one token have tokens of one length, so they are one
    obtain ⟨_, i, hi, x, y, he⟩ := l.registered r hr
    have ht : i.token <:+ r.2 := by
      rw [he]
      exact (List.suffix_cons ..).trans (List.suffix_cons ..)
    have hl : i.token.length = j.token.length := by
      rw [l.length_token hi, l.length_token hj]
    have hij : i.token = j.token :=
      (List.suffix_of_suffix_length_le ht hs (Nat.le_of_eq hl)).eq_of_length hl
    obtain rfl := l.eq_of_token hi hj hij
    by_cases hn : s.slot = some i
    · exact .inr hn
    · exact .inl (stays ((l.superseded i hi).2 (.inl hn)))
  · rcases v.reach c hc j hj hs with h | h
    · exact .inl (stays h)
    · cases h

theorem Orderly.replace (v : Orderly ⟨s, .silenced q w⟩ jobs) :
    Orderly ⟨{ s with tokens := (s.tokens.child s.shutdown).2, slot := some (s.jobOf w) },
      .replaced q s.slot⟩ jobs := by
  have l : State.Ledger s jobs := v.ledger
  refine ⟨l.child, ?_, v.reach, v.holds⟩
  intro q' outgoing _
  have h := l.incoming w
  exact ⟨_, rfl, h.token, h.other, h.alive, h.clear⟩

/-- with the outgoing job cancelled, the miner has its new job -/
theorem Orderly.relieve {outgoing : Option Job} (v : Orderly ⟨s, .replaced q outgoing⟩ jobs) :
    ∃ j, Orderly ⟨{ s with tokens := State.retire outgoing s.tokens }, .relieved q⟩
      (jobs ++ [j]) := by
  obtain ⟨j, hj, h⟩ := v.incoming q outgoing rfl
  have l : State.Ledger { s with slot := outgoing } jobs := v.ledger
  have hv : State.Incoming { s with slot := outgoing } jobs j := ⟨h.token, h.other, h.alive, h.clear⟩
  have lj : State.Ledger { s with tokens := State.retire outgoing s.tokens } (jobs ++ [j]) := by
    have hl := l.succeed hv
    rw [← hj] at hl
    exact hl
  refine ⟨j, lj, nofun, ?_, v.holds⟩
  intro c hc i hi hs
  refine .inl ((lj.superseded i hi).2 ?_)
  by_cases hn : s.slot = some i
  · -- nothing below the new job has been cancelled, unless by a stop
    obtain rfl : j = i := Option.some.inj (hj.symm.trans hn)
    refine .inr (State.isCancelled_retire_iff.2 (.inr ?_))
    rcases State.mem_cancelled_retire.1 hc with ⟨old, ho, rfl⟩ | hc
    · have hl : j.token.length = old.token.length := by
        rw [l.length_incoming hv, l.length_token (l.mem_of_slot ho)]
      exact absurd (hs.eq_of_length hl).symm (h.other old (l.mem_of_slot ho))
    · exact h.clear c hc hs
  · exact .inl hn

theorem Orderly.unlock (v : Orderly ⟨s, .relieved q⟩ jobs) :
    Orderly ⟨s.launch.1.resume q.asker, .free⟩ jobs := by
  have l : State.Ledger s jobs := v.ledger
  refine ⟨l.launch.resume q.asker, nofun, ?_, ?_⟩
  · obtain ⟨run, loop, he, _⟩ := State.resume_eq s.launch.1 q.asker
    obtain ⟨mining, loop', hl⟩ := (State.launch_eq s).1
    rw [he, hl]
    exact v.reach
  · refine v.holds.mono ?_
    rw [State.searches_resume]
    rcases State.loop_launch_eq_or s with hl | hl
    · rw [hl]
      exact List.Subset.refl _
    · rw [hl]
      exact List.nil_subset _

theorem Orderly.next (v : Orderly c jobs) (h : Next su c d) :
    ∃ jobs', jobs ⊆ jobs' ∧ Orderly d jobs' := by
  cases h with
  | move step slot blind => exact ⟨jobs, List.Subset.refl _, v.move step slot blind⟩
  | lock => exact ⟨jobs, List.Subset.refl _, v.lock ..⟩
  | silence => exact ⟨jobs, List.Subset.refl _, v.silence _⟩
  | replace => exact ⟨jobs, List.Subset.refl _, v.replace⟩
  | relieve =>
    obtain ⟨j, hj⟩ := v.relieve
    exact ⟨jobs ++ [j], List.subset_append_left .., hj⟩
  | unlock => exact ⟨jobs, List.Subset.refl _, v.unlock⟩

theorem Orderly.leads (v : Orderly a jobs) (h : Leads su a b) :
    ∃ jobs', jobs ⊆ jobs' ∧ Orderly b jobs' := by
  induction h with
  | refl => exact ⟨jobs, List.Subset.refl _, v⟩
  | tail _ hn ih =>
    obtain ⟨js, hs, vj⟩ := ih
    obtain ⟨ks, hk, vk⟩ := vj.next hn
    exact ⟨ks, List.Subset.trans hs hk, vk⟩

/-! ## the tokens of searches -/

theorem Orderly.exists_of_running (v : Orderly a jobs) {f : Focus} {n : Nat} {qs : List Search}
    {p : Search} {t : Token} (round : a.state.loop = .round f n qs) (search : p ∈ qs)
    (running : p.phase = .running t) : f.job ∈ jobs ∧ ∃ k i, t = k :: i :: f.job.token := by
  have w : State.Serves a.state.loop jobs a.state.tokens.next := v.ledger.serves
  have hs : p ∈ a.state.loop.searches := by
    rw [round]
    exact search
  have hf : a.state.loop.focus? = some f := by
    rw [round]
    rfl
  obtain ⟨i, _, hi⟩ := w.searches f hf p hs
  obtain ⟨k, hk⟩ := v.holds p hs t running
  exact ⟨(w.focus f hf).1, k, i, by rw [hk, hi]⟩

/-- Searches of a job may begin at any time after its round has, in the midst of a handover as well.
Once the job is superseded or the miner has been stopped, all of them are cancelled.  None is
cancelled before, but for those of the job that a handover is about to cancel; and when no handover
is under way, a job in the slot of a running miner has no search that is cancelled. -/
theorem stop_reaches_outgoing {f : Focus} {n : Nat} {qs : List Search} {p : Search} {t : Token}
    (ha : Leads su start a) (hb : Leads su a b) (round : a.state.loop = .round f n qs)
    (search : p ∈ qs) (running : p.phase = .running t) :
    (b.state.isSuperseded f.job = true ∨ b.state.isStopped = true →
      b.state.tokens.isCancelled t = true) ∧
    (b.state.tokens.isCancelled t = true →
      b.state.isSuperseded f.job = true ∨ b.leaving = some f.job) ∧
    (b.stage = .free →
      (b.state.tokens.isCancelled t = true ↔ b.state.isSuperseded f.job = true) ∧
      (b.state.isSuperseded f.job = true ↔
        b.state.slot ≠ some f.job ∨ b.state.isStopped = true)) := by
  obtain ⟨jobs, _, va⟩ := orderly_start.leads ha
  obtain ⟨jobs', hj, vb⟩ := va.leads hb
  obtain ⟨hm, k, i, rfl⟩ := va.exists_of_running round search running
  have hf : f.job ∈ jobs' := hj hm
  have below : f.job.token <:+ k :: i :: f.job.token :=
    (List.suffix_cons ..).trans (List.suffix_cons ..)
  have down (h : b.state.isSuperseded f.job = true ∨ b.state.isStopped = true) :
      b.state.tokens.isCancelled (k :: i :: f.job.token) = true := by
    rcases h with h | h
    · exact Tokens.isCancelled_of_suffix h below
    · exact Tokens.isCancelled_of_suffix h ((vb.ledger.shutdown_suffix hf).trans below)
  have up (h : b.state.tokens.isCancelled (k :: i :: f.job.token) = true) :
      b.state.isSuperseded f.job = true ∨ b.leaving = some f.job := by
    -- what has been cancelled above the search is above its job too, or below it
    obtain ⟨c, hc, hs⟩ := (Tokens.isCancelled_iff ..).1 h
    rcases List.suffix_or_suffix_of_suffix hs below with hs | hs
    · exact .inl ((Tokens.isCancelled_iff ..).2 ⟨c, hc, hs⟩)
    · exact vb.reach c hc f.job hf hs
  refine ⟨down, up, ?_⟩
  intro free
  obtain ⟨s, stage⟩ := b
  obtain rfl : stage = .free := free
  refine ⟨⟨fun h => (up h).resolve_right nofun, fun h => down (.inl h)⟩, ?_⟩
  have l : State.Ledger s jobs' := vb.ledger
  exact l.superseded f.job hf

end Scene

namespace Trial

/-- the searches have been stopped for other work -/
def silenced : State := { awaiting.state.without ⟨1, .caller⟩ with offset := 0 }.stopAll

theorem isSome_beginSearch : (silenced.step setup (.beginSearch 0)).isSome = true := by
  decide +kernel

def late : State := ((silenced.step setup (.beginSearch 0)).get isSome_beginSearch).1

def handed : State :=
  let job := late.jobOf (work 2 0 255)
  let tokens := State.retire late.slot (late.tokens.child late.shutdown).2
  (State.launch { late with tokens, slot := some job }).1

/-- a search that begins when the others have been stopped already is cancelled with its job -/
theorem stop_reaches_late :
    ∃ f n qs p t, late.loop = .round f n qs ∧ p ∈ qs ∧ p.phase = .running t ∧
      late.slot = some f.job ∧ late.tokens.isCancelled t = false ∧
      handed.tokens.isCancelled t = true := by
  have judged : awaiting.state.judgeAnswer setup (.ok (some (.ofWork .testnet (work 2 0 255)))) =
      .ok (.newJob, some (work 2 0 255)) := State.judgeAnswer_ofWork (by decide +kernel)
  have open_ : awaiting.state.inquiries.find? (fun i => i.id == 1) = some ⟨1, .caller⟩ := by
    decide +kernel
  have lock : Scene.Next setup ⟨awaiting.state, .free⟩
      ⟨awaiting.state.without ⟨1, .caller⟩, .locked ⟨1, .caller⟩ (work 2 0 255) 0⟩ :=
    .lock open_ judged
  have h1 : Scene.Leads setup .start ⟨late, .silenced ⟨1, .caller⟩ (work 2 0 255)⟩ := by
    refine ((awaiting.scene.tail lock).tail .silence).tail ?_
    refine .move (Option.some_get isSome_beginSearch).symm ?_ (.inr (State.blind_beginSearch _ 0))
    decide +kernel
  have h2 : Scene.Leads setup ⟨late, .silenced ⟨1, .caller⟩ (work 2 0 255)⟩ ⟨handed, .free⟩ :=
    ((Relation.ReflTransGen.single .replace).tail .relieve).tail .unlock
  refine ⟨_, _, _, _, _, rfl, List.mem_singleton_self _, rfl, by decide +kernel, by decide +kernel, ?_⟩
  exact (Scene.stop_reaches_outgoing h1 h2 rfl (List.mem_singleton_self _) rfl).1
    (.inl (by decide +kernel))

end Trial

end HeaderMiner.Miner
