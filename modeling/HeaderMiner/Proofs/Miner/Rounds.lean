import HeaderMiner.Proofs.Miner.Lifetime
/-!
# Rounds on a record

Rounds are numbered as they begin, so a number stands for one begin and at most one end, and an
open round is one that has begun and not ended (`Journal`).  A block is handed in only where a
round ends, and the loop waits for its verdict before it goes on; so the verdicts answer the
submissions one by one, and only the last submission can lack one (`Tally`).
-/

namespace HeaderMiner.Miner

/-! ## what a record tells of rounds -/

/-- whether an event begins or ends a round, or hands in a block -/
def Event.isOfRound : Event → Bool
  | .dispatched .. | .ended .. | .submitted .. => true
  | _ => false

def Event.roundJob? : Event → Option Job
  | .dispatched _ j _ _ => some j
  | _ => none

def Event.submission? : Event → Option (Nat × List UInt8)
  | .submitted n raw => some (n, raw)
  | _ => none

def Event.verdict? : Event → Option (Nat × Except Error Verdict)
  | .judged n verdict => some (n, verdict)
  | _ => none

def isAccepting : Except Error Verdict → Bool
  | .ok v => v.accepted
  | .error _ => false

/-- the round whose submission waits for its verdict -/
def Loop.pending : Loop → List Nat
  | .submission _ n => [n]
  | _ => []

namespace History

variable {su : Setup}

/-- the jobs that the rounds so far have been on -/
def turned (h : History su) : List Job := h.record.filterMap Event.roundJob?

def submissions (h : History su) : List (Nat × List UInt8) :=
  h.record.filterMap Event.submission?

def verdicts (h : History su) : List (Nat × Except Error Verdict) :=
  h.record.filterMap Event.verdict?

theorem mem_submissions {h : History su} {n : Nat} {raw : List UInt8} :
    (n, raw) ∈ h.submissions ↔ .submitted n raw ∈ h.record := by
  rw [submissions, List.mem_filterMap]
  constructor
  · rintro ⟨e, he, hs⟩
    cases e <;> cases hs
    exact he
  · intro hs
    exact ⟨_, hs, rfl⟩

end History

namespace State

variable {su : Setup} {s t : State} {m : Move} {record es : List Event}

/-! ## begins and ends -/

/-- the rounds on a record, and the open one -/
structure Journal (s : State) (record : List Event) : Prop where
  dispatched : ∀ {n j header rs}, .dispatched n j header rs ∈ record → n < s.rounds
  ended : ∀ {n r}, .ended n r ∈ record → n < s.rounds
  once : ∀ {n j header rs j' header' rs'}, .dispatched n j header rs ∈ record →
    .dispatched n j' header' rs' ∈ record → j = j' ∧ header = header' ∧ rs = rs'
  running : ∀ {f n qs}, s.loop = .round f n qs →
    n < s.rounds ∧ (∃ rs, .dispatched n f.job f.header rs ∈ record) ∧ ∀ r, .ended n r ∉ record
  submitted : ∀ {n raw}, .submitted n raw ∈ record → ∃ r, .ended n r ∈ record
  count : (record.filterMap Event.roundJob?).length = s.rounds

theorem Journal.quiet (v : Journal s record) (hr : t.rounds = s.rounds)
    (hl : ∀ f n qs, t.loop = .round f n qs → ∃ ps, s.loop = .round f n ps)
    (he : ∀ e ∈ es, e.isOfRound = false) : Journal t (record ++ es) := by
  have old {e : Event} (hm : e ∈ record ++ es) (hk : e.isOfRound = true) : e ∈ record := by
    rcases List.mem_append.1 hm with hm | hm
    · exact hm
    · rw [he e hm] at hk
      cases hk
  constructor
  · intro n j header rs hd
    rw [hr]
    exact v.dispatched (old hd rfl)
  · intro n r hd
    rw [hr]
    exact v.ended (old hd rfl)
  · intro n j header rs j' header' rs' hd hd'
    exact v.once (old hd rfl) (old hd' rfl)
  · intro f n qs hf
    obtain ⟨ps, hs⟩ := hl f n qs hf
    obtain ⟨hn, ⟨rs, hd⟩, hu⟩ := v.running hs
    exact ⟨hr ▸ hn, ⟨rs, List.mem_append_left _ hd⟩, fun r h => hu r (old h rfl)⟩
  · intro n raw hd
    obtain ⟨r, h⟩ := v.submitted (old hd rfl)
    exact ⟨r, List.mem_append_left _ h⟩
  · have hn : es.filterMap Event.roundJob? = [] := by
      rw [List.filterMap_eq_nil_iff]
      intro e hm
      cases e with
      | dispatched => cases he _ hm
      | _ => rfl
    rw [List.filterMap_append, hn, List.append_nil, hr]
    exact v.count

/-- the begin of a round gets a number of its own -/
theorem Journal.dispatch (v : Journal s record) (f : Focus) (mo : Moment) :
    Journal (s.dispatch su f mo).1 (record ++ (s.dispatch su f mo).2) := by
  have hr : (s.dispatch su f mo).1.rounds = s.rounds + 1 := rfl
  have he : (s.dispatch su f mo).2 = [.dispatched s.rounds f.job f.header
      (su.plan.requests f.header f.job.work.target mo.tails)] := rfl
  rw [he]
  constructor
  · intro n j header rs hd
    rw [hr]
    rcases List.mem_append.1 hd with hd | hd
    · exact Nat.lt_succ_of_lt (v.dispatched hd)
    · cases List.mem_singleton.1 hd
      exact Nat.lt_succ_self _
  · intro n r hd
    rw [hr]
    rcases List.mem_append.1 hd with hd | hd
    · exact Nat.lt_succ_of_lt (v.ended hd)
    · cases List.mem_singleton.1 hd
  · intro n j header rs j' header' rs' hd hd'
    rcases List.mem_append.1 hd with hd | hd <;> rcases List.mem_append.1 hd' with hd' | hd'
    · exact v.once hd hd'
    · cases List.mem_singleton.1 hd'
      exact absurd (v.dispatched hd) (Nat.lt_irrefl _)
    · cases List.mem_singleton.1 hd
      exact absurd (v.dispatched hd') (Nat.lt_irrefl _)
    · cases List.mem_singleton.1 hd
      cases List.mem_singleton.1 hd'
      exact ⟨rfl, rfl, rfl⟩
  · intro g n qs hl
    cases hl
    refine ⟨Nat.lt_succ_self _, ⟨_, List.mem_append_right _ (List.mem_singleton.2 rfl)⟩, ?_⟩
    intro r h
    rcases List.mem_append.1 h with h | h
    · exact absurd (v.ended h) (Nat.lt_irrefl _)
    · cases List.mem_singleton.1 h
  · intro n raw hd
    rcases List.mem_append.1 hd with hd | hd
    · obtain ⟨r, h⟩ := v.submitted hd
      exact ⟨r, List.mem_append_left _ h⟩
    · cases List.mem_singleton.1 hd
  · rw [List.filterMap_append, List.length_append, v.count]
    rfl

/-- the end of a round is put on the record before the block that it has found -/
theorem Journal.close (v : Journal s record) {f : Focus} {n : Nat} {qs : List Search}
    {r : Except Error Candidate} {rest : List Event} (hl : s.loop = .round f n qs)
    (hr : t.rounds = s.rounds) (ht : ∀ g k ps, t.loop ≠ .round g k ps)
    (he : rest = [] ∨ ∃ raw, rest = [.submitted n raw]) :
    Journal t (record ++ .ended n r :: rest) := by
  obtain ⟨hn, _, _⟩ := v.running hl
  have tail {e : Event} (hm : e ∈ rest) : ∃ raw, e = .submitted n raw := by
    rcases he with rfl | ⟨raw, rfl⟩
    · cases hm
    · exact ⟨raw, List.mem_singleton.1 hm⟩
  have old {k j header rs} (hm : .dispatched k j header rs ∈ record ++ .ended n r :: rest) :
      .dispatched k j header rs ∈ record := by
    rcases List.mem_append.1 hm with hm | hm
    · exact hm
    rcases List.mem_cons.1 hm with hm | hm
    · cases hm
    · obtain ⟨raw, hm⟩ := tail hm
      cases hm
  constructor
  · intro k j header rs hd
    rw [hr]
    exact v.dispatched (old hd)
  · intro k r' hd
    rw [hr]
    rcases List.mem_append.1 hd with hd | hd
    · exact v.ended hd
    rcases List.mem_cons.1 hd with hd | hd
    · cases hd
      exact hn
    · obtain ⟨raw, hd⟩ := tail hd
      cases hd
  · intro k j header rs j' header' rs' hd hd'
    exact v.once (old hd) (old hd')
  · intro g k ps h
    exact absurd h (ht g k ps)
  · intro k raw hd
    rcases List.mem_append.1 hd with hd | hd
    · obtain ⟨r', h⟩ := v.submitted hd
      exact ⟨r', List.mem_append_left _ h⟩
    rcases List.mem_cons.1 hd with hd | hd
    · cases hd
    · obtain ⟨_, hd⟩ := tail hd
      cases hd
      exact ⟨r, List.mem_append_right _ List.mem_cons_self⟩
  · have hn : (Event.ended n r :: rest).filterMap Event.roundJob? = [] := by
      rcases he with rfl | ⟨raw, rfl⟩
      · rfl
      · rfl
    rw [List.filterMap_append, hn, List.append_nil, hr]
    exact v.count

theorem round_resume {s : State} {a : Asker} {f : Focus} {n : Nat} {qs : List Search}
    (h : (s.resume a).loop = .round f n qs) : s.loop = .round f n qs := by
  obtain ⟨run, loop, he, hl⟩ := resume_eq s a
  rw [he] at h
  rcases hl with rfl | ⟨g, _, rfl⟩
  · exact h
  · cases h

theorem rounds_resume (s : State) (a : Asker) : (s.resume a).rounds = s.rounds :=
  frame_resume State.rounds (fun _ _ _ => rfl) s a

theorem round_install {w : Work} {clock : Int} {f : Focus} {n : Nat} {qs : List Search}
    (h : (s.install w clock).1.loop = .round f n qs) : s.loop = .round f n qs := by
  rcases loop_install_eq_or s w clock with hl | hl
  · exact hl.symm.trans h
  · cases hl.symm.trans h

theorem rounds_install (s : State) (w : Work) (clock : Int) :
    (s.install w clock).1.rounds = s.rounds := by
  obtain ⟨mining, loop, he⟩ := exists_install s w clock
  rw [he]
  rfl

theorem Journal.step (v : Journal s record) (ht : Transition su s m t es) :
    Journal t (record ++ es) := by
  -- apart from begins and ends, a step may change the searches of the open round, but not the round
  have same (f : Focus) (n : Nat) (qs : List Search) (h : s.loop = .round f n qs) :
      ∃ ps, s.loop = .round f n ps := ⟨qs, h⟩
  cases ht with
  | tick | poll | fire => exact v.quiet rfl same (by simp [ask, Event.isOfRound])
  | keep | fail =>
    refine v.quiet (rounds_resume ..) ?_ (by simp [Event.isOfRound])
    intro f n qs h
    have hk := round_resume h
    exact ⟨qs, hk⟩
  | @install _ _ clock q w _ _ =>
    refine v.quiet ((rounds_resume ..).trans (rounds_install ..)) ?_ ?_
    · intro f n qs h
      have hk := round_install (round_resume h)
      exact ⟨qs, hk⟩
    · intro e he
      rcases mem_install he with rfl | rfl | rfl | rfl <;> rfl
  | enter | miss | finish | overrun | endPause =>
    exact v.quiet rfl (fun _ _ _ h => Loop.noConfusion h) (List.forall_mem_nil _)
  | @dispatch f mo header _ _ _ _ => exact v.dispatch { f.turnTo s.slot with header } mo
  | @reject i f n qs q e loop _ _ _ =>
    refine v.quiet rfl ?_ (List.forall_mem_nil _)
    intro _ _ _ h
    cases h
    exact ⟨qs, loop⟩
  | @begin i f n qs q _ _ _ loop _ _ _ _ =>
    refine v.quiet rfl ?_ (List.forall_mem_nil _)
    intro _ _ _ h
    cases h
    exact ⟨qs, loop⟩
  | @release i f n qs q _ _ loop _ _ =>
    refine v.quiet rfl ?_ (List.forall_mem_nil _)
    intro _ _ _ h
    cases h
    exact ⟨qs, loop⟩
  | pause loop | pass loop | misfit loop =>
    exact v.close loop rfl (fun _ _ _ h => Loop.noConfusion h) (.inl rfl)
  | submit loop =>
    exact v.close loop rfl (fun _ _ _ h => Loop.noConfusion h) (.inr ⟨_, rfl⟩)
  | inquire | goOn =>
    exact v.quiet rfl (fun _ _ _ h => Loop.noConfusion h) (by simp [ask, Event.isOfRound])
  | stop | leaveRun => exact v.quiet rfl same (by simp [Event.isOfRound])
  | startRun => exact v.quiet rfl same (List.forall_mem_nil _)
  | endRun => exact v.quiet rfl same (by simp [Event.isOfRound])

/-! ## submissions and verdicts -/

/-- the counters of a miner, and which submission waits for its verdict -/
structure Tally (s : State) (submissions : List (Nat × List UInt8))
    (verdicts : List (Nat × Except Error Verdict)) : Prop where
  submitted : s.submitted = submissions.length
  accepted : s.accepted = verdicts.countP fun v => isAccepting v.2
  pending : submissions.map Prod.fst = verdicts.map Prod.fst ++ s.loop.pending
  once : (submissions.map Prod.fst).Nodup

variable {subs : List (Nat × List UInt8)} {vs : List (Nat × Except Error Verdict)}

theorem Tally.quiet (v : Tally s subs vs) (hs : t.submitted = s.submitted)
    (ha : t.accepted = s.accepted) (hp : t.loop.pending = s.loop.pending) :
    Tally t (subs ++ []) (vs ++ []) := by
  rw [List.append_nil, List.append_nil]
  exact ⟨hs.trans v.submitted, ha.trans v.accepted, hp ▸ v.pending, v.once⟩

/-- a block is handed in when none waits for its verdict, for a round that has found none yet -/
theorem Tally.submit (v : Tally s subs vs) {n : Nat} {raw : List UInt8}
    (hs : t.submitted = s.submitted + 1) (ha : t.accepted = s.accepted)
    (hl : s.loop.pending = []) (hp : t.loop.pending = [n]) (hn : n ∉ subs.map Prod.fst) :
    Tally t (subs ++ [(n, raw)]) (vs ++ []) := by
  rw [List.append_nil]
  refine ⟨?_, ha.trans v.accepted, ?_, ?_⟩
  · rw [hs, v.submitted, List.length_append, List.length_singleton]
  · rw [List.map_append, v.pending, hl, List.append_nil, hp]
    rfl
  · rw [List.map_append, List.map_singleton, List.nodup_append]
    refine ⟨v.once, List.nodup_singleton _, ?_⟩
    intro a ha b hb he
    rw [List.mem_singleton.1 hb] at he
    rw [he] at ha
    exact hn ha

theorem acceptances_eq (verdict : Except Error Verdict) :
    acceptances verdict = if isAccepting verdict then 1 else 0 := by
  cases verdict <;> rfl

/-- a verdict is on the block that waits for one -/
theorem Tally.judge (v : Tally s subs vs) {n : Nat} {verdict : Except Error Verdict}
    (hs : t.submitted = s.submitted) (ha : t.accepted = s.accepted + acceptances verdict)
    (hl : s.loop.pending = [n]) (hp : t.loop.pending = []) :
    Tally t (subs ++ []) (vs ++ [(n, verdict)]) := by
  rw [List.append_nil]
  refine ⟨hs.trans v.submitted, ?_, ?_, v.once⟩
  · rw [ha, v.accepted, List.countP_append, acceptances_eq, List.countP_singleton]
  · rw [v.pending, hl, hp, List.map_append, List.append_nil]
    rfl

theorem pending_resume (s : State) (a : Asker) : (s.resume a).loop.pending = s.loop.pending :=
  loop_resume Loop.pending (fun _ => rfl) s a

theorem pending_launch (v : Lifetime s) : s.launch.1.loop.pending = s.loop.pending :=
  loop_launch Loop.pending rfl rfl v

theorem counters_resume (s : State) (a : Asker) :
    (s.resume a).submitted = s.submitted ∧ (s.resume a).accepted = s.accepted :=
  ⟨frame_resume State.submitted (fun _ _ _ => rfl) s a,
    frame_resume State.accepted (fun _ _ _ => rfl) s a⟩

theorem Tally.step {jobs : List Job} (v : Tally s subs vs) (l : Ledger s jobs) (f : Lifetime s)
    (hn : ∀ f n qs, s.loop = .round f n qs → n ∉ subs.map Prod.fst) (ht : Transition su s m t es) :
    Tally t (subs ++ es.filterMap Event.submission?) (vs ++ es.filterMap Event.verdict?) := by
  cases ht with
  | tick | poll | startRun | fire | stop | leaveRun | endRun => exact v.quiet rfl rfl rfl
  | @keep _ _ _ q o _ _ _ =>
    obtain ⟨hs, ha⟩ := counters_resume (s.without q) q.asker
    exact v.quiet hs ha (pending_resume ..)
  | @fail _ _ _ q e _ _ _ _ =>
    obtain ⟨hs, ha⟩ := counters_resume ((s.without q).fail e) q.asker
    exact v.quiet hs ha (pending_resume ..)
  | @install _ _ clock q w _ _ =>
    have quiet {e : Event}
        (he : e ∈ ((s.without q).install w clock).2 ++ [.answered q.id q.asker (.ok .newJob)]) :
        e.submission? = none ∧ e.verdict? = none := by
      rcases mem_install he with rfl | rfl | rfl | rfl <;> exact ⟨rfl, rfl⟩
    obtain ⟨hs, ha⟩ := counters_resume ((s.without q).install w clock).1 q.asker
    obtain ⟨mining, loop, hu⟩ := exists_install (s.without q) w clock
    rw [List.filterMap_eq_nil_iff.2 fun e he => (quiet he).1,
      List.filterMap_eq_nil_iff.2 fun e he => (quiet he).2]
    refine v.quiet ?_ ?_ ?_
    · rw [hs, hu]
      rfl
    · rw [ha, hu]
      rfl
    · rw [pending_resume, install_eq, pending_launch ((f.without q).seated (l.without q) w clock)]
      rfl
  | enter loop | miss loop | finish loop | overrun loop | dispatch loop | reject loop | begin loop
  | release loop | pause loop | pass loop | misfit loop | endPause loop =>
    exact v.quiet rfl rfl (by rw [loop]; rfl)
  | submit loop => exact v.submit rfl rfl (by rw [loop]; rfl) rfl (hn _ _ _ loop)
  | inquire loop | goOn loop => exact v.judge rfl rfl (by rw [loop]; rfl) rfl

end State

namespace History

variable {su : Setup}

theorem journal (h : History su) : State.Journal h.state h.record := by
  induction h using induction with
  | start => exact ⟨nofun, nofun, nofun, fun h => Loop.noConfusion h, nofun, rfl⟩
  | extend h m t es hs ih => exact ih.step (State.transition_of_step hs)

theorem tally (h : History su) : State.Tally h.state h.submissions h.verdicts := by
  induction h using induction with
  | start => exact ⟨rfl, rfl, rfl, List.nodup_nil⟩
  | extend h m t es hs ih =>
    show State.Tally t ((h.record ++ es).filterMap _) ((h.record ++ es).filterMap _)
    rw [List.filterMap_append, List.filterMap_append]
    refine ih.step h.ledger h.lifetime ?_ (State.transition_of_step hs)
    -- a round for which a block has been handed in has ended, and an open one has not
    intro f n qs hl hm
    obtain ⟨⟨_, raw⟩, hs, rfl⟩ := List.mem_map.1 hm
    obtain ⟨r, he⟩ := h.journal.submitted (mem_submissions.1 hs)
    exact (h.journal.running hl).2.2 r he

end History

end HeaderMiner.Miner
