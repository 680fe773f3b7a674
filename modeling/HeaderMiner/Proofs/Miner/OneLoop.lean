import HeaderMiner.Proofs.Miner.Assertions
import HeaderMiner.Proofs.Miner.Rounds
/-!
# One loop and one round at a time

A loop is started only where none has been started before: the flag that keeps a second one away is
taken back when the loop ends, but a loop ends only in a miner that has been stopped, and there
nothing is started.  For the same reason a job never waits for a loop in vain.  What could go wrong
is that new work finds the flag of a loop that is about to end; then the miner has been stopped.

As there is one loop, and it waits for the round that it has begun, no two rounds are ever open.
-/

namespace HeaderMiner.Miner

def Event.isLaunch : Event → Bool
  | .launched => true
  | _ => false

/-- the number of loops that there have been -/
def Loop.launches : Loop → Nat
  | .absent => 0
  | _ => 1

def Loop.inRound : Loop → Bool
  | .round .. => true
  | _ => false

theorem Loop.launches_le_one (l : Loop) : l.launches ≤ 1 := by
  cases l <;> simp [launches]

theorem Loop.launches_eq_zero_iff {l : Loop} : l.launches = 0 ↔ l = .absent := by
  cases l <;> simp [launches]

theorem Loop.IsBegun.launches {l : Loop} (h : l.IsBegun) : l.launches = 1 := by
  rcases h with h | ⟨v, rfl⟩
  · cases l <;> first | rfl | cases h
  · rfl

namespace State

variable {su : Setup} {s t : State} {m : Move} {record es : List Event} {k : Nat}

/-! ## the launch of a loop -/

/-- the loop that has been started, and why there is none if there is none -/
structure Launched (s : State) (k : Nat) : Prop where
  count : k = s.loop.launches
  idle : s.loop = .absent → s.slot = none ∨ s.isStopped = true

theorem Launched.quiet (v : Launched s k) (hl : t.loop.launches = s.loop.launches)
    (hs : t.slot = s.slot) (hm : s.isStopped = true → t.isStopped = true) : Launched t k where
  count := by rw [hl]; exact v.count
  idle := by
    intro ht
    have ha : s.loop = .absent := by
      rw [← Loop.launches_eq_zero_iff] at ht ⊢
      rw [← hl, ht]
    rw [hs]
    exact (v.idle ha).imp_right hm

theorem launches_resume (s : State) (a : Asker) :
    (s.resume a).loop.launches = s.loop.launches := loop_resume Loop.launches (fun _ => rfl) s a

theorem Launched.install {jobs : List Job} (v : Launched s k) (f : Lifetime s) (l : Ledger s jobs)
    (w : Work) (clock : Int) :
    Launched (s.install w clock).1 (k + (s.install w clock).2.countP Event.isLaunch) := by
  have hr : (s.seated w clock).isStopped = s.isStopped := l.isCancelled_relieved_root
  rw [install_eq]
  rcases (launch_eq (s.seated w clock)).2 with ⟨he, hc⟩ | ⟨he, hs, hm⟩
  · -- no loop is started because the miner has been stopped, or because the flag is up
    rw [he]
    refine ⟨v.count, ?_⟩
    intro (ha : s.loop = .absent)
    rcases hc with hs | hm
    · exact .inr hs
    · have hb : s.loop.launches = 1 := (f.begun hm).launches
      rw [ha] at hb
      cases hb
  · rw [he]
    -- the flag is down and the miner runs, so there has been no loop yet
    have ha : s.loop = .absent := by
      rcases f.idle hm with ha | ⟨_, hst⟩
      · exact ha
      · rw [hr, hst] at hs
        cases hs
    have hk : k = 0 := by
      rw [v.count, ha]
      rfl
    refine ⟨?_, nofun⟩
    rw [hk]
    rfl

theorem Launched.step {jobs : List Job} (v : Launched s k) (f : Lifetime s) (l : Ledger s jobs)
    (ht : Transition su s m t es) : Launched t (k + es.countP Event.isLaunch) := by
  have hm : s.isStopped = true → t.isStopped = true :=
    fun h => (isStopped_step l ht).2 (.inl h)
  -- a loop that is past its launch stays so, wherever it goes
  have go {a b : Loop} (ha : s.loop = a) (hb : t.loop = b) (hab : b.launches = a.launches)
      (hs : t.slot = s.slot) : Launched t (k + 0) := v.quiet (by rw [ha, hb, hab]) hs hm
  cases ht with
  | tick | poll | stop | startRun | fire | leaveRun | endRun => exact v.quiet rfl rfl hm
  | @keep _ _ _ q _ _ _ _ => exact v.quiet (launches_resume ..) (slot_resume ..) hm
  | @fail _ _ _ q e _ _ _ _ => exact v.quiet (launches_resume ..) (slot_resume ..) hm
  | @install _ _ clock q w _ _ =>
    have hi : Launched ((s.without q).install w clock).1
        (k + ((s.without q).install w clock).2.countP Event.isLaunch) := by
      refine Launched.install ?_ (f.without q) (l.without q) w clock
      exact ⟨v.count, v.idle⟩
    rw [List.countP_append]
    refine hi.quiet (launches_resume ..) (slot_resume ..) ?_
    rw [isStopped_resume]
    exact id
  | enter loop | miss loop | finish loop | overrun loop | dispatch loop | reject loop | begin loop
  | release loop | pause loop | pass loop | misfit loop | submit loop | endPause loop
  | inquire loop | goOn loop => exact go loop rfl rfl rfl

theorem slot_of_newJob {id : Nat} {a : Asker} (ht : Transition su s m t es)
    (h : .answered id a (.ok .newJob) ∈ es) : t.slot ≠ none := by
  cases ht with
  | @keep _ response _ q o _ judged _ =>
    cases List.mem_singleton.1 h
    match response with
    | .error e => rw [judgeAnswer_error] at judged; cases judged
    | .ok none => rw [judgeAnswer_none] at judged; cases judged
    | .ok (some answer) =>
      cases hv : answer.validate su.network with
      | error e => rw [judgeAnswer_of_error hv] at judged; cases judged
      | ok w =>
        rw [judgeAnswer_of_ok hv] at judged
        split at judged <;> cases judged
  | @install _ _ clock q w _ _ =>
    obtain ⟨mining, loop, he⟩ := exists_install (s.without q) w clock
    rw [slot_resume, he]
    exact Option.some_ne_none _
  | _ => simp [ask, dispatch] at h

/-! ## the round that is open -/

/-- a round that has begun has ended, unless it is the loop's -/
def Waits (s : State) (record : List Event) : Prop :=
  ∀ n j header rs, .dispatched n j header rs ∈ record →
    (∃ r, .ended n r ∈ record) ∨ ∃ f qs, s.loop = .round f n qs

theorem Waits.quiet (v : Waits s record) (he : ∀ e ∈ es, e.roundJob? = none)
    (hl : ∀ f n qs, s.loop = .round f n qs → ∃ ps, t.loop = .round f n ps) :
    Waits t (record ++ es) := by
  intro n j header rs hd
  rcases List.mem_append.1 hd with hd | hd
  · rcases v n j header rs hd with ⟨r, hr⟩ | ⟨f, qs, hf⟩
    · exact .inl ⟨r, List.mem_append_left _ hr⟩
    · obtain ⟨ps, hp⟩ := hl f n qs hf
      exact .inr ⟨f, ps, hp⟩
  · cases he _ hd

theorem round_of_round {g : Focus} {n : Nat} {qs : List Search} (h : s.loop = .round g n qs)
    (a : Asker) : (s.resume a).loop = .round g n qs := by
  obtain ⟨run, loop, he, hl⟩ := resume_eq s a
  rw [he]
  rcases hl with rfl | ⟨_, hp, _⟩
  · exact h
  · rw [h] at hp
    cases hp

theorem Waits.step (v : Waits s record) (f : Lifetime s) (ht : Transition su s m t es) :
    Waits t (record ++ es) := by
  have same (g : Focus) (n : Nat) (qs : List Search) (h : s.loop = .round g n qs) :
      ∃ ps, s.loop = .round g n ps := ⟨qs, h⟩
  -- between two rounds the loop waits for none
  have idle {l : Loop} (hl : s.loop = l) (hr : l.inRound = false)
      (he : ∀ e ∈ es, e.roundJob? = none) : Waits t (record ++ es) := by
    refine v.quiet he ?_
    intro g n qs h
    rw [← hl, h] at hr
    cases hr
  have close {g : Focus} {n : Nat} {qs : List Search} {r : Except Error Candidate}
      {rest : List Event} (hl : s.loop = .round g n qs) (he : ∀ e ∈ rest, e.roundJob? = none) :
      Waits t (record ++ .ended n r :: rest) := by
    intro k j header rs hd
    rcases List.mem_append.1 hd with hd | hd
    · rcases v k j header rs hd with ⟨r', hr⟩ | ⟨g', qs', hg⟩
      · exact .inl ⟨r', List.mem_append_left _ hr⟩
      · rw [hl] at hg
        cases hg
        exact .inl ⟨r, List.mem_append_right _ List.mem_cons_self⟩
    · rcases List.mem_cons.1 hd with hd | hd
      · cases hd
      · cases he _ hd
  cases ht with
  | tick | poll | fire => exact v.quiet (by simp [ask, Event.roundJob?]) same
  | @keep _ _ _ q _ _ _ _ =>
    exact v.quiet (by simp [Event.roundJob?]) fun g n qs h =>
      ⟨qs, round_of_round (s := s.without q) h q.asker⟩
  | @fail _ _ _ q e _ _ _ _ =>
    exact v.quiet (by simp [Event.roundJob?]) fun g n qs h =>
      ⟨qs, round_of_round (s := (s.without q).fail e) h q.asker⟩
  | @install _ _ clock q w _ _ =>
    refine v.quiet ?_ ?_
    · intro e he
      rcases mem_install he with rfl | rfl | rfl | rfl <;> rfl
    · intro g n qs h
      refine ⟨qs, round_of_round ?_ q.asker⟩
      rw [install_eq]
      rcases (launch_eq ((s.without q).seated w clock)).2 with ⟨he, _⟩ | ⟨_, _, hm⟩
      · rw [he]
        exact h
      · have hb : s.mining = true := f.mining_of_begun (.inl (by rw [h]; rfl))
        rw [show s.mining = false from hm] at hb
        cases hb
  | enter loop | miss loop | finish loop | overrun loop | endPause loop =>
    exact idle loop rfl (List.forall_mem_nil _)
  | @dispatch g mo header _ loop _ _ =>
    intro n j header' rs hd
    rcases List.mem_append.1 hd with hd | hd
    · rcases v n j header' rs hd with ⟨r, hr⟩ | ⟨g', qs, hg⟩
      · exact .inl ⟨r, List.mem_append_left _ hr⟩
      · rw [loop] at hg
        cases hg
    · cases List.mem_singleton.1 hd
      exact .inr ⟨_, _, rfl⟩
  | reject loop | begin loop | release loop =>
    refine v.quiet (List.forall_mem_nil _) ?_
    intro g n qs h
    rw [loop] at h
    cases h
    exact ⟨_, rfl⟩
  | pause loop | pass loop | misfit loop => exact close loop (List.forall_mem_nil _)
  | submit loop => exact close loop (by simp [Event.roundJob?])
  | inquire loop | goOn loop =>
    exact idle loop rfl (by simp [ask, Event.roundJob?])
  | stop | leaveRun => exact v.quiet (by simp [Event.roundJob?]) same
  | startRun => exact v.quiet (List.forall_mem_nil _) same
  | endRun => exact v.quiet (by simp [Event.roundJob?]) same

end State

namespace History

variable {su : Setup}

def launches (h : History su) : Nat := h.record.countP Event.isLaunch

/-- round `n` has begun, and the loop has not resumed from it yet -/
def InFlight (h : History su) (n : Nat) : Prop :=
  (∃ j header rs, .dispatched n j header rs ∈ h.record) ∧ ∀ r, .ended n r ∉ h.record

theorem launched (h : History su) : State.Launched h.state h.launches := by
  induction h using induction with
  | start => exact ⟨rfl, fun _ => .inl rfl⟩
  | extend h m t es hs ih =>
    show State.Launched t ((h.record ++ es).countP Event.isLaunch)
    rw [List.countP_append]
    exact ih.step h.lifetime h.ledger (State.transition_of_step hs)

theorem waits (h : History su) : State.Waits h.state h.record := by
  induction h using induction with
  | start => exact nofun
  | extend h m t es hs ih => exact ih.step h.lifetime (State.transition_of_step hs)

theorem isBegun_of_slot {h : History su} (hs : h.state.slot ≠ none)
    (hr : h.state.isStopped = false) : h.state.loop.IsBegun := by
  refine h.lifetime.begun ?_
  rw [← Bool.not_eq_false]
  intro hm
  rcases h.lifetime.idle hm with ha | ⟨_, hst⟩
  · rcases h.launched.idle ha with hn | hst
    · exact hs hn
    · rw [hr] at hst
      cases hst
  · rw [hr] at hst
    cases hst

theorem mining_iff {h : History su} :
    h.state.mining = true ↔ h.launches = 1 ∧ h.state.loop ≠ .finished := by
  constructor
  · intro hm
    have hb : h.state.loop.IsBegun := h.lifetime.begun hm
    refine ⟨h.launched.count.trans hb.launches, ?_⟩
    intro hf
    rw [hf] at hb
    rcases hb with hb | ⟨_, hb⟩ <;> cases hb
  · rintro ⟨hl, hf⟩
    rw [← Bool.not_eq_false]
    intro hm
    rcases h.lifetime.idle hm with ha | ⟨ha, _⟩
    · rw [h.launched.count, ha] at hl
      cases hl
    · exact hf ha

theorem inFlight_iff {h : History su} {n : Nat} :
    h.InFlight n ↔ ∃ f qs, h.state.loop = .round f n qs := by
  constructor
  · rintro ⟨⟨j, header, rs, hd⟩, hu⟩
    exact (h.waits n j header rs hd).resolve_left fun ⟨r, hr⟩ => hu r hr
  · rintro ⟨f, qs, hl⟩
    obtain ⟨_, ⟨rs, hd⟩, hu⟩ := h.journal.running hl
    exact ⟨⟨_, _, rs, hd⟩, hu⟩

/-- Whatever happens in whatever order: no second loop is ever started, the flag tells whether the
one that has been started has not finished, and as long as the miner runs and has a job there is
such a loop, also where an answer has just brought the job.  A loop that has begun still goes on
unless it has broken on what `Faults` says.  It has one round open at most, and no other is. -/
theorem one_loop (h : History su) :
    h.launches ≤ 1 ∧ (h.launches = 0 ↔ h.state.loop = .absent) ∧
    (h.state.mining = true ↔ h.launches = 1 ∧ h.state.loop ≠ .finished) ∧
    (h.state.slot ≠ none → h.state.isStopped = false → h.state.loop.IsBegun) ∧
    (∀ id response clock t es, h.state.step su (.answer id response clock) = some (t, es) →
      (∃ a, .answered id a (.ok .newJob) ∈ es) → t.isStopped = false → t.loop.IsBegun) ∧
    (h.state.loop.IsBegun → h.state.loop.isAlive = true ∨ h.Faults) ∧
    (∀ n, h.InFlight n ↔ ∃ f qs, h.state.loop = .round f n qs) ∧
    ∀ m n, h.InFlight m → h.InFlight n → m = n := by
  have hc : h.launches = h.state.loop.launches := h.launched.count
  refine ⟨?_, ?_, mining_iff, isBegun_of_slot, ?_, ?_, fun n => inFlight_iff, ?_⟩
  · rw [hc]
    exact h.state.loop.launches_le_one
  · rw [hc]
    exact Loop.launches_eq_zero_iff
  · rintro id response clock t es hs ⟨a, ha⟩ hr
    refine isBegun_of_slot (h := h.extend _ t es hs) ?_ hr
    exact State.slot_of_newJob (State.transition_of_step hs) ha
  · rintro (ha | ⟨v, hv⟩)
    · exact .inl ha
    · exact .inr (faults_of_broken hv)
  · intro m n hm hn
    obtain ⟨f, qs, hl⟩ := inFlight_iff.1 hm
    obtain ⟨g, ps, hk⟩ := inFlight_iff.1 hn
    rw [hl] at hk
    cases hk
    rfl

end History

end HeaderMiner.Miner
