import HeaderMiner.Proofs.Miner.Ledger
/-!
# Which jobs are superseded

A job is superseded exactly if another job is in the slot or the miner has been stopped
(`superseded_exactly`).  That is a fact about one state, and the ledger has it; what is added here
is how the two sides change along a history.  Nothing that is cancelled comes to life again
(`isCancelled_of_earlier`), jobs are only ever appended, and a miner is stopped by `stop` and by the
fatal errors that polls contain, and by nothing else (`isStopped_iff`).
-/

namespace HeaderMiner.Miner

namespace State

variable {su : Setup} {s t : State} {m : Move} {es : List Event}

/-- an error that stops the miner: a fatal one that a poll has met -/
def Defeat (e : Event) : Prop :=
  ∃ id a err, e = .answered id a (.error err) ∧ a ≠ .caller ∧ err.isFatal = true

theorem not_defeat_of_mild {id : Nat} {a : Asker} {o : Except Error Outcome}
    (h : ∀ e, o = .error e → a ≠ .caller → e.isFatal = false) : ¬ Defeat (.answered id a o) := by
  rintro ⟨_, _, e, he, ha, hf⟩
  cases he
  rw [h e rfl ha] at hf
  cases hf

theorem isStopped_resume (s : State) (a : Asker) : (s.resume a).isStopped = s.isStopped :=
  frame_resume isStopped (fun _ _ _ => rfl) s a

theorem isStopped_install {jobs : List Job} (l : Ledger s jobs) (w : Work) (clock : Int) :
    (s.install w clock).1.isStopped = s.isStopped := by
  obtain ⟨mining, loop, he⟩ := exists_install s w clock
  rw [he]
  exact l.isCancelled_relieved_root

theorem isStopped_dispatch (f : Focus) (mo : Moment) :
    (s.dispatch su f mo).1.isStopped = s.isStopped := by
  show (Search.ofRequests ..).2.isCancelled s.shutdown = _
  rw [Search.tokens_ofRequests]
  rfl

/-- a step stops the miner exactly if it is told to, or contains a fatal error -/
theorem isStopped_step {jobs : List Job} (l : Ledger s jobs) (ht : Transition su s m t es) :
    t.isStopped = true ↔ s.isStopped = true ∨ m = .stop ∨ ∃ e ∈ es, Defeat e := by
  have same {m : Move} {es : List Event} (hm : m ≠ .stop) (he : ∀ e ∈ es, ¬ Defeat e) :
      s.isStopped = true ↔ s.isStopped = true ∨ m = .stop ∨ ∃ e ∈ es, Defeat e := by
    refine (or_iff_left ?_).symm
    rintro (h | ⟨e, h, hd⟩)
    · exact hm h
    · exact he e h hd
  cases ht with
  | @keep id _ _ q o _ _ mild =>
    rw [isStopped_resume]
    refine same nofun ?_
    intro e he
    obtain rfl := List.mem_singleton.1 he
    exact not_defeat_of_mild mild
  | @fail _ _ _ q e _ _ contained fatal =>
    rw [isStopped_resume]
    have hs : ((s.without q).fail e).isStopped = true := isStopped_stop _
    exact iff_of_true hs (.inr (.inr ⟨_, List.mem_cons_self, _, _, _, rfl, contained, fatal⟩))
  | @install _ _ clock q w _ _ =>
    rw [isStopped_resume, isStopped_install (l.without q)]
    refine same nofun ?_
    intro e he
    rcases mem_install he with rfl | rfl | rfl | rfl <;> simp [Defeat]
  | stop => exact iff_of_true (isStopped_stop s) (.inr (.inl rfl))
  | dispatch =>
    rw [isStopped_dispatch]
    exact same nofun (by simp [dispatch, Defeat])
  | begin _ _ _ _ started =>
    obtain ⟨_, rfl, rfl, rfl⟩ := Registry.start_eq_ok_iff.1 started
    exact same nofun (by simp)
  | leaveRun _ stopped => exact iff_of_true (isStopped_stop s) (.inl stopped)
  | _ => exact same nofun (by simp [ask, Defeat])

theorem isCancelled_step {c : Token} (hc : s.tokens.isCancelled c = true)
    (ht : Transition su s m t es) : t.tokens.isCancelled c = true := by
  have stop (u : State) (hu : u.tokens.isCancelled c = true) :
      u.stop.tokens.isCancelled c = true := by
    show (u.registry.stopAll (u.tokens.cancel u.shutdown)).isCancelled c = true
    rw [Registry.isCancelled_stopAll_iff, Tokens.isCancelled_cancel_iff]
    exact .inr (.inr hu)
  have resume (u : State) (a : Asker) (hu : u.tokens.isCancelled c = true) :
      (u.resume a).tokens.isCancelled c = true := by
    rw [frame_resume State.tokens (fun _ _ _ => rfl) u a]
    exact hu
  cases ht with
  | keep => exact resume _ _ hc
  | fail => exact resume _ _ (stop _ hc)
  | @install _ _ clock q w _ _ =>
    refine resume _ _ ?_
    obtain ⟨mining, loop, he⟩ := exists_install (s.without q) w clock
    rw [he]
    show (s.without q).relieved.isCancelled c = true
    rw [isCancelled_relieved_iff, Registry.isCancelled_stopAll_iff]
    exact .inr (.inr hc)
  | @dispatch f mo header _ _ _ _ =>
    show (Search.ofRequests ..).2.isCancelled c = true
    rw [Search.tokens_ofRequests]
    exact hc
  | begin _ _ _ _ started =>
    obtain ⟨_, rfl, rfl, rfl⟩ := Registry.start_eq_ok_iff.1 started
    exact hc
  | stop => exact stop _ hc
  | leaveRun => exact stop _ hc
  | _ => exact hc

end State

namespace History

variable {su : Setup}

theorem isStopped_iff (h : History su) :
    h.state.isStopped = true ↔ .stop ∈ h.moves ∨ ∃ e ∈ h.record, State.Defeat e := by
  induction h using induction with
  | start => exact iff_of_false nofun (by simp [start])
  | extend h m t es hs ih =>
    show t.isStopped = true ↔ .stop ∈ h.moves ++ [m] ∨ ∃ e ∈ h.record ++ es, State.Defeat e
    rw [State.isStopped_step h.ledger (State.transition_of_step hs), ih]
    simp only [List.mem_append, List.mem_singleton, or_and_right, exists_or, eq_comm (a := m)]
    exact or_or_or_comm

/-! ## one history going on from another -/

theorem prefix_extend_iff {h g : History su} {m : Move} {t : State} {es : List Event}
    {hs : g.state.step su m = some (t, es)} :
    h.moves <+: (g.extend m t es hs).moves ↔ h = g.extend m t es hs ∨ h.moves <+: g.moves := by
  show h.moves <+: g.moves ++ [m] ↔ _
  rw [List.prefix_concat_iff]
  exact or_congr_left ⟨fun he => ext he, fun he => congrArg moves he⟩

theorem eq_start_of_earlier {h : History su} (hp : h.moves <+: (start su).moves) : h = start su :=
  ext (List.prefix_nil.1 hp)

theorem isCancelled_of_earlier {h g : History su} (hp : h.moves <+: g.moves) {c : Token}
    (hc : h.state.tokens.isCancelled c = true) : g.state.tokens.isCancelled c = true := by
  induction g using induction with
  | start => rwa [eq_start_of_earlier hp] at hc
  | extend g m t es hs ih =>
    rcases prefix_extend_iff.1 hp with rfl | hp
    · exact hc
    · exact State.isCancelled_step (ih hp) (State.transition_of_step hs)

theorem record_of_earlier {h g : History su} (hp : h.moves <+: g.moves) :
    h.record <+: g.record := by
  induction g using induction with
  | start =>
    obtain rfl := eq_start_of_earlier hp
    exact List.prefix_refl _
  | extend g m t es hs ih =>
    rcases prefix_extend_iff.1 hp with rfl | hp
    · exact List.prefix_refl _
    · exact (ih hp).trans (List.prefix_append ..)

theorem isStopped_of_earlier {h g : History su} (hp : h.moves <+: g.moves) :
    h.state.isStopped = true → g.state.isStopped = true := by
  rw [isStopped_iff, isStopped_iff]
  rintro (hm | ⟨e, he, hd⟩)
  · exact .inl (hp.subset hm)
  · exact .inr ⟨e, (record_of_earlier hp).subset he, hd⟩

theorem jobs_of_earlier {h g : History su} (hp : h.moves <+: g.moves) : h.jobs <+: g.jobs :=
  (record_of_earlier hp).filterMap Event.job?

/-- Of all jobs that have ever been taken on, those are superseded that are not in the slot, and
every one once the miner has been stopped.  The slot holds the last job, is never emptied, and no
job that is superseded comes to life again; one that is taken on after a stop never lives. -/
theorem superseded_exactly (h : History su) :
    (∀ j ∈ h.jobs, h.state.isSuperseded j = true ↔
      h.state.slot ≠ some j ∨ h.state.isStopped = true) ∧
    (h.state.isStopped = true ↔ .stop ∈ h.moves ∨ ∃ e ∈ h.record, State.Defeat e) ∧
    h.state.slot = h.jobs.getLast? ∧ (h.jobs.map Job.token).Nodup ∧
    (∀ j, h.state.slot = some j → h.state.isStopped = false → h.state.isSuperseded j = false) ∧
    ∀ g : History su, h.moves <+: g.moves →
      (∀ j ∈ h.jobs, h.state.isSuperseded j = true → g.state.isSuperseded j = true) ∧
      (h.state.isStopped = true → ∀ j ∈ g.jobs, g.state.isSuperseded j = true) ∧
      (h.state.slot ≠ none → g.state.slot ≠ none) := by
  have l : State.Ledger h.state h.jobs := h.ledger
  refine ⟨l.superseded, h.isStopped_iff, l.slot, l.nodup, ?_, ?_⟩
  · intro j hj hr
    rw [Bool.eq_false_iff, ne_eq, l.superseded j (l.mem_of_slot hj)]
    rintro (hn | hs)
    · exact hn hj
    · rw [hr] at hs
      cases hs
  · intro g hp
    refine ⟨fun j _ hc => isCancelled_of_earlier hp hc, ?_, ?_⟩
    · intro hs j hj
      exact (g.ledger.superseded j hj).2 (.inr (isStopped_of_earlier hp hs))
    · rw [l.slot, g.ledger.slot, ne_eq, ne_eq, List.getLast?_eq_none_iff, List.getLast?_eq_none_iff]
      intro hn he
      exact hn (List.prefix_nil.1 (he ▸ jobs_of_earlier hp))

end History

end HeaderMiner.Miner
