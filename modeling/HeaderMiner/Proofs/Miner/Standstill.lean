import HeaderMiner.Proofs.Miner.Submission
/-!
# Nothing starts after a stop

A miner that has been stopped is stopped for good, and three facts about one step keep everything
from starting in it: new work is taken on without a loop, a loop that comes to its next turn ends,
and a match that comes back is not handed in, because a stop supersedes all jobs there are and all
that come later.  What is under way goes on: searches begin and end, verdicts and answers arrive,
and an answer may even put another job into the slot.
-/

namespace HeaderMiner.Miner

/-- whether an event starts a loop or a round, or hands in a block -/
def Event.isStart : Event → Bool
  | .launched | .dispatched .. | .submitted .. => true
  | _ => false

namespace State

variable {su : Setup} {s t : State} {m : Move} {es : List Event} {jobs : List Job}

theorem isStart_install (l : Ledger s jobs) (hs : s.isStopped = true) (w : Work) (clock : Int) :
    ∀ e ∈ (s.install w clock).2, e.isStart = false := by
  have hr : (s.seated w clock).isStopped = true := l.isCancelled_relieved_root.trans hs
  rw [install_eq]
  rcases (launch_eq (s.seated w clock)).2 with ⟨he, _⟩ | ⟨_, hn, _⟩
  · rw [he]
    simp [Event.isStart]
  · rw [hr] at hn
    cases hn

theorem isCurrent_of_isStopped (l : Ledger s jobs) (hs : s.isStopped = true) {f : Focus}
    (hf : s.loop.focus? = some f) : s.isCurrent f = false := by
  have hj : f.job ∈ jobs := (l.serves.focus f hf).1
  have hc : s.isSuperseded f.job = true := (l.superseded f.job hj).2 (.inr hs)
  simp [isCurrent, hc]

/-- a step of a miner that has been stopped starts nothing -/
theorem isStart_step (l : Ledger s jobs) (hs : s.isStopped = true)
    (ht : Transition su s m t es) : ∀ e ∈ es, e.isStart = false := by
  cases ht with
  | @install _ _ clock q w _ _ =>
    intro e he
    rcases List.mem_append.1 he with he | he
    · exact isStart_install (l.without q) hs w clock e he
    · rw [List.mem_singleton.1 he]
      rfl
  | dispatch _ running =>
    rw [hs] at running
    cases running
  | submit loop _ _ worthy =>
    rw [isCurrent_of_isStopped l hs (by rw [loop]; rfl), Bool.and_false] at worthy
    cases worthy
  | _ => simp [ask, Event.isStart]

end State

namespace History

variable {su : Setup}

theorem exists_later {h g : History su} (hp : h.moves <+: g.moves)
    (hs : h.state.isStopped = true) :
    ∃ later, g.record = h.record ++ later ∧ ∀ e ∈ later, e.isStart = false := by
  induction g using induction with
  | start =>
    obtain rfl := eq_start_of_earlier hp
    exact ⟨[], rfl, List.forall_mem_nil _⟩
  | extend g m t es hm ih =>
    rcases prefix_extend_iff.1 hp with rfl | hp
    · exact ⟨[], (List.append_nil _).symm, List.forall_mem_nil _⟩
    · obtain ⟨later, he, hl⟩ := ih hp
      refine ⟨later ++ es, ?_, ?_⟩
      · show g.record ++ es = _
        rw [he, List.append_assoc]
      · intro e hm'
        rcases List.mem_append.1 hm' with hm' | hm'
        · exact hl e hm'
        · exact State.isStart_step g.ledger (isStopped_of_earlier hp hs)
            (State.transition_of_step hm) e hm'

/-- Once a miner has been told to stop, or a poll has met a fatal error, no round begins any more, no
block is handed in and no loop is started, whatever the loop was doing and whatever answers come. -/
theorem nothing_starts (h g : History su) (earlier : h.moves <+: g.moves)
    (stopped : .stop ∈ h.moves ∨ ∃ e ∈ h.record, State.Defeat e) :
    ∃ later, g.record = h.record ++ later ∧
      (∀ n j header rs, .dispatched n j header rs ∉ later) ∧ (∀ n raw, .submitted n raw ∉ later) ∧
      .launched ∉ later ∧ g.state.rounds = h.state.rounds ∧
      g.state.submitted = h.state.submitted := by
  obtain ⟨later, he, hl⟩ := exists_later earlier (h.isStopped_iff.2 stopped)
  have none {e : Event} (hs : e.isStart = true) : e ∉ later := by
    intro hm
    rw [hl e hm] at hs
    cases hs
  refine ⟨later, he, fun _ _ _ _ => none rfl, fun _ _ => none rfl, none rfl, ?_, ?_⟩
  · have hr : later.filterMap Event.roundJob? = [] := by
      rw [List.filterMap_eq_nil_iff]
      intro e hm
      cases e with
      | dispatched => exact absurd hm (none rfl)
      | _ => rfl
    rw [← g.journal.count, ← h.journal.count, he, List.filterMap_append, hr, List.append_nil]
  · have hr : later.filterMap Event.submission? = [] := by
      rw [List.filterMap_eq_nil_iff]
      intro e hm
      cases e with
      | submitted => exact absurd hm (none rfl)
      | _ => rfl
    have hs : g.submissions = h.submissions := by
      rw [submissions, he, List.filterMap_append, hr, List.append_nil]
      rfl
    rw [g.tally.submitted, h.tally.submitted, hs]

end History

namespace Trial

/-- the miner of `overtaken` is stopped while its search goes on -/
def stopped : History setup := overtaken.go .stop (by decide +kernel)

/-- after the stop the search comes back with a match, and another job is taken on -/
def belated : History setup :=
  stopped
    |>.go (.endSearch 0 (.ok { Candidate.none with isMatch := true })) (by decide +kernel)
    |>.go .tick (by decide +kernel)
    |>.receive ⟨3, .caller⟩ (work 4 0 255) (by decide +kernel) (by decide +kernel)
    |>.go .endRound (by decide +kernel)
    |>.go (.turn moment) (by decide +kernel)

/-- the match that comes back after the stop is dropped, and the fourth job gets no round -/
theorem nothing_starts_belated :
    .stop ∈ stopped.moves ∧ belated.jobs.length = 4 ∧
      ∃ later, belated.record = stopped.record ++ later ∧
        (∀ n j header rs, .dispatched n j header rs ∉ later) ∧
        (∀ n raw, .submitted n raw ∉ later) ∧ .launched ∉ later ∧
        belated.state.rounds = stopped.state.rounds ∧
        belated.state.submitted = stopped.state.submitted := by
  have hs : .stop ∈ stopped.moves := List.mem_append_right _ (List.mem_singleton_self _)
  have hp : stopped.moves <+: belated.moves := by
    refine .trans ?_ (List.prefix_append _ [_])
    refine .trans ?_ (List.prefix_append _ [_])
    refine .trans ?_ (List.prefix_append _ [_])
    refine .trans ?_ (List.prefix_append _ [_])
    exact List.prefix_append _ [_]
  exact ⟨hs, by decide +kernel, History.nothing_starts stopped belated hp (.inl hs)⟩

end Trial

end HeaderMiner.Miner
