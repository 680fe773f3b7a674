import HeaderMiner.Proofs.Miner.Rounds
import HeaderMiner.Proofs.Miner.Trial
import HeaderMiner.Proofs.Worker.Blocks
/-!
# Which blocks are handed in

A round begins on the job that is in the slot at that moment (`Begins`), and the loop resumes from
it at most once (`Ends.unique`).  Where it resumes, a match is handed in exactly if the round's own
job has not been superseded and the slot still shows its identity (`mem_submissions_iff`).  The
first condition alone says that the slot holds the very job of the round: a later job that carries
the same identity does not bring an earlier one back.
-/

namespace HeaderMiner.Miner

namespace State

variable {su : Setup} {s t : State} {m : Move} {es : List Event}

/-- a block is handed in only where a round ends -/
theorem ended_of_submitted (ht : Transition su s m t es) {n : Nat} {raw : List UInt8}
    (h : .submitted n raw ∈ es) : m = .endRound ∧ ∃ r, .ended n r ∈ es := by
  cases ht with
  | submit =>
    rcases List.mem_cons.1 h with h | h
    · cases h
    · cases List.mem_singleton.1 h
      exact ⟨rfl, _, List.mem_cons_self⟩
  | install =>
    rcases mem_install h with h | h | h | h <;> cases h
  | _ => simp [ask, dispatch] at h

theorem eq_of_ended_mem {n k : Nat} {r r' : Except Error Candidate} {rest : List Event}
    (h : .ended k r' ∈ Event.ended n r :: rest) (hrest : .ended k r' ∉ rest) : k = n ∧ r' = r := by
  cases (List.mem_cons.1 h).resolve_right hrest
  exact ⟨rfl, rfl⟩

/-- what the loop does where a round ends: the round is over, and its match is handed in if it is
still worth it -/
theorem submitted_iff_of_ended (ht : Transition su s .endRound t es) {n : Nat}
    {r : Except Error Candidate} (h : .ended n r ∈ es) :
    ∃ f qs, s.loop = .round f n qs ∧ (∀ k r', .ended k r' ∈ es → k = n ∧ r' = r) ∧
      ∀ raw, .submitted n raw ∈ es ↔ ∃ c b, r = .ok c ∧ c.isMatch = true ∧
        s.isCurrent f = true ∧ c.finalize f.header = .ok b ∧ b.raw = raw := by
  cases ht with
  | pause loop =>
    obtain ⟨rfl, rfl⟩ := eq_of_ended_mem h nofun
    exact ⟨_, _, loop, fun _ _ hk => eq_of_ended_mem hk nofun, fun raw => by simp⟩
  | pass loop _ _ worthless =>
    obtain ⟨rfl, rfl⟩ := eq_of_ended_mem h nofun
    refine ⟨_, _, loop, fun _ _ hk => eq_of_ended_mem hk nofun, fun raw => ⟨fun hs => ?_, ?_⟩⟩
    · cases List.mem_singleton.1 hs
    · rintro ⟨c, b, hc, hm, hu, _⟩
      cases hc
      rw [hm, hu] at worthless
      cases worthless
  | misfit loop _ _ _ finalized =>
    obtain ⟨rfl, rfl⟩ := eq_of_ended_mem h nofun
    refine ⟨_, _, loop, fun _ _ hk => eq_of_ended_mem hk nofun, fun raw => ⟨fun hs => ?_, ?_⟩⟩
    · cases List.mem_singleton.1 hs
    · rintro ⟨c, b, hc, _, _, hb, _⟩
      cases hc
      rw [hb] at finalized
      cases finalized
  | @submit f k qs rs c b loop _ _ worthy finalized =>
    obtain ⟨rfl, rfl⟩ := eq_of_ended_mem h (by simp)
    refine ⟨f, qs, loop, fun _ _ hk => eq_of_ended_mem hk (by simp), fun raw => ⟨fun hs => ?_, ?_⟩⟩
    · obtain ⟨hm, hu⟩ := Bool.and_eq_true_iff.1 worthy
      rcases List.mem_cons.1 hs with hs | hs
      · cases hs
      · cases List.mem_singleton.1 hs
        exact ⟨c, b, rfl, hm, hu, finalized, rfl⟩
    · rintro ⟨c', b', hc, _, _, hb, rfl⟩
      cases hc
      rw [finalized] at hb
      cases hb
      exact List.mem_cons_of_mem _ (List.mem_singleton.2 rfl)

end State

namespace History

variable {su : Setup} {h : History su} {n : Nat} {j : Job} {header : Header}
  {requests : List Request}

/-- round `n` has begun on the job in the slot: its requests are for the job's target, and its
searches stand under the job's token -/
def Begins (h : History su) (n : Nat) (j : Job) (header : Header) (requests : List Request) :
    Prop :=
  ∃ g m t es qs, h.Makes g (.turn m) ∧ g.state.step su (.turn m) = some (t, es) ∧
    .dispatched n j header requests ∈ es ∧ g.state.slot = some j ∧
    requests = su.plan.requests header j.work.target m.tails ∧
    t.loop = .round ⟨j, j.identity, header⟩ n qs ∧ qs.map (·.request) = requests ∧
    ∀ q ∈ qs, ∃ k, q.parent = k :: j.token

/-- the loop has resumed from round `n`, in a state and with a result -/
def Ends (h : History su) (n : Nat) (s : State) (r : Except Error Candidate) : Prop :=
  ∃ g t es, h.Makes g .endRound ∧ g.state = s ∧ s.step su .endRound = some (t, es) ∧
    .ended n r ∈ es

/-! ## begins -/

theorem earlier_of_makes {g : History su} {m : Move} (hg : h.Makes g m) : g.moves <+: h.moves :=
  (List.prefix_append ..).trans hg

theorem slot_of_focus (h : History su) {f : Focus} (hf : h.state.loop.focus? = some f) :
    ∃ j, h.state.slot = some j := by
  have hm : f.job ∈ h.jobs := (h.ledger.serves.focus f hf).1
  rw [h.ledger.slot, ← Option.isSome_iff_exists, List.getLast?_isSome]
  exact List.ne_nil_of_mem hm

theorem begins_of_dispatched (hd : .dispatched n j header requests ∈ h.record) :
    h.Begins n j header requests := by
  obtain ⟨g, m, t, es, hg, hs, he⟩ := mem_record_iff.1 hd
  cases State.transition_of_step hs with
  | @dispatch f m header' _ loop _ _ =>
    obtain ⟨i, hi⟩ := g.slot_of_focus (by rw [loop]; rfl : g.state.loop.focus? = some f)
    have hj : (f.turnTo g.state.slot).job = i := by rw [Focus.turnTo_job, hi, Option.getD_some]
    have hi' : (f.turnTo g.state.slot).identity = i.identity := by
      rw [Focus.turnTo_identity, hi, Option.getD_some]
    have hf : ({ f.turnTo g.state.slot with header := header' } : Focus) =
        ⟨i, i.identity, header'⟩ := by rw [← hi', ← hj]
    rw [hf] at he hs
    have hm := he
    cases List.mem_singleton.1 he
    exact ⟨g, m, _, _, _, hg, hs, hm, hi, rfl, rfl, Search.map_request_ofRequests ..,
      fun q hq => (Search.parent_ofRequests hq).imp fun k hk => hk.2⟩
  | install =>
    rcases State.mem_install he with he | he | he | he <;> cases he
  | _ => simp [State.ask] at he

/-! ## ends -/

theorem exists_running (hd : .dispatched n j header requests ∈ h.record) {s : State}
    {r : Except Error Candidate} (he : h.Ends n s r) :
    ∃ g t es f qs, h.Makes g .endRound ∧ g.state = s ∧ s.step su .endRound = some (t, es) ∧
      .ended n r ∈ es ∧ g.state.loop = .round f n qs ∧ f.job = j ∧ f.header = header := by
  obtain ⟨g, t, es, hg, rfl, hs, hr⟩ := he
  obtain ⟨f, qs, hl, _, _⟩ := State.submitted_iff_of_ended (State.transition_of_step hs) hr
  obtain ⟨_, ⟨rs, hf⟩, _⟩ := g.journal.running hl
  obtain ⟨hj, hh, _⟩ := h.journal.once hd ((record_of_earlier (earlier_of_makes hg)).subset hf)
  exact ⟨g, t, es, f, qs, hg, rfl, hs, hr, hl, hj.symm, hh.symm⟩

/-- the loop resumes from a round once at most -/
theorem Ends.unique {s s' : State} {r r' : Except Error Candidate} (he : h.Ends n s r)
    (he' : h.Ends n s' r') : s = s' ∧ r = r' := by
  obtain ⟨g, t, es, hg, rfl, hs, hr⟩ := he
  obtain ⟨g', t', es', hg', rfl, hs', hr'⟩ := he'
  -- if one end came before another, the round would have been open and ended at the later one
  have first {g g' : History su} {t es r r'} (hs : g.state.step su .endRound = some (t, es))
      (hr : .ended n r ∈ es) (hg : g'.Makes g .endRound) {t' es'}
      (hs' : g'.state.step su .endRound = some (t', es')) (hr' : .ended n r' ∈ es') : False := by
    obtain ⟨f, qs, hl, _⟩ := State.submitted_iff_of_ended (State.transition_of_step hs') hr'
    exact (g'.journal.running hl).2.2 r (mem_record_iff.2 ⟨g, _, t, es, hg, hs, hr⟩)
  rcases Makes.total hg hg' with rfl | hm | hm
  · obtain ⟨rfl, rfl⟩ := Prod.mk.inj (Option.some.inj (hs.symm.trans hs'))
    obtain ⟨_, _, _, hu, _⟩ := State.submitted_iff_of_ended (State.transition_of_step hs) hr
    exact ⟨rfl, ((hu n r' hr').2).symm⟩
  · exact (first hs hr hm hs' hr').elim
  · exact (first hs' hr' hm hs hr).elim

/-! ## what is handed in -/

/-- a block is handed in for a round exactly if the loop resumes from it with a match while the
round's own job is not superseded and the slot shows its identity; it is the match on the round's
own header -/
theorem mem_submissions_iff (hd : .dispatched n j header requests ∈ h.record)
    {raw : List UInt8} :
    (n, raw) ∈ h.submissions ↔ ∃ s c b, h.Ends n s (.ok c) ∧ c.isMatch = true ∧
      s.isSuperseded j = false ∧ s.identity? = some j.identity ∧ c.finalize header = .ok b ∧
      b.raw = raw := by
  have current {g : History su} {f : Focus} {qs : List Search}
      (hl : g.state.loop = .round f n qs) (hj : f.job = j) : g.state.isCurrent f = true ↔
        g.state.isSuperseded j = false ∧ g.state.identity? = some j.identity := by
    obtain ⟨_, hi⟩ := g.ledger.serves.focus f (by rw [hl]; rfl)
    rw [State.isCurrent, hi, hj]
    simp
  constructor
  · intro hm
    obtain ⟨g, m, t, es, hg, hs, he⟩ := mem_record_iff.1 (mem_submissions.1 hm)
    obtain ⟨rfl, r, hr⟩ := State.ended_of_submitted (State.transition_of_step hs) he
    have hend : h.Ends n g.state r := ⟨g, t, es, hg, rfl, hs, hr⟩
    obtain ⟨f, qs, hl, _, hsub⟩ := State.submitted_iff_of_ended (State.transition_of_step hs) hr
    obtain ⟨c, b, rfl, hc, hu, hb, hraw⟩ := (hsub raw).1 he
    obtain ⟨_, ⟨rs, hf⟩, _⟩ := g.journal.running hl
    obtain ⟨hj, hh, _⟩ := h.journal.once hd ((record_of_earlier (earlier_of_makes hg)).subset hf)
    obtain ⟨hns, hid⟩ := (current hl hj.symm).1 hu
    exact ⟨g.state, c, b, hend, hc, hns, hid, hh ▸ hb, hraw⟩
  · rintro ⟨s, c, b, hend, hc, hns, hid, hb, hraw⟩
    obtain ⟨g, t, es, f, qs, hg, rfl, hs, hr, hl, hj, hh⟩ := exists_running hd hend
    obtain ⟨f', qs', hl', _, hsub⟩ := State.submitted_iff_of_ended (State.transition_of_step hs) hr
    rw [hl] at hl'
    cases hl'
    have hu : g.state.isCurrent f = true := (current hl hj).2 ⟨hns, hid⟩
    exact mem_submissions.2 (mem_record_iff.2
      ⟨g, _, t, es, hg, hs, (hsub raw).2 ⟨c, b, rfl, hc, hu, hh ▸ hb, hraw⟩⟩)

/-- Whatever happens in whatever order: the counters tell how many blocks have been handed in and
how many of the verdicts on them accept, and each verdict is on another submission.  Each round has
begun on a job that was in the slot.  At most one block is handed in for it, and one is exactly if
the loop resumes from it with a match while its job is not superseded and the slot shows the job's
identity; that block is the match on the round's header, which every match makes whose proof is
whole.  None is handed in if another job is in the slot when the loop resumes, whatever its
identity. -/
theorem submissions_exactly (h : History su) :
    h.state.submitted = h.submissions.length ∧
    h.state.accepted = (h.verdicts.countP fun v => isAccepting v.2) ∧
    h.verdicts.map Prod.fst <+: h.submissions.map Prod.fst ∧
    (h.submissions.map Prod.fst).Nodup ∧
    ∀ n j header requests, .dispatched n j header requests ∈ h.record →
      j ∈ h.jobs ∧ h.Begins n j header requests ∧
      (∀ raw, (n, raw) ∈ h.submissions ↔ ∃ s c b, h.Ends n s (.ok c) ∧ c.isMatch = true ∧
        s.isSuperseded j = false ∧ s.identity? = some j.identity ∧ c.finalize header = .ok b ∧
        b.raw = raw) ∧
      (∀ s c, h.Ends n s (.ok c) → c.isMatch = true → s.isSuperseded j = false →
        s.identity? = some j.identity → c.IsWhole →
          ∃ b, c.finalize header = .ok b ∧ (n, b.raw) ∈ h.submissions) ∧
      ∀ s r, h.Ends n s r → s.slot ≠ some j → ∀ raw, (n, raw) ∉ h.submissions := by
  refine ⟨h.tally.submitted, h.tally.accepted, ?_, h.tally.once, ?_⟩
  · rw [h.tally.pending]
    exact List.prefix_append ..
  · intro n j header requests hd
    have hb : h.Begins n j header requests := begins_of_dispatched hd
    refine ⟨?_, hb, fun raw => mem_submissions_iff hd, ?_, ?_⟩
    · obtain ⟨g, m, t, es, qs, hg, _, _, hj, _⟩ := hb
      exact (jobs_of_earlier (earlier_of_makes hg)).subset (g.ledger.mem_of_slot hj)
    · intro s c hend hm hns hid hw
      obtain ⟨b, hf⟩ := (Candidate.exists_finalize_iff (h := header)).2 hw
      exact ⟨b, hf, (mem_submissions_iff hd).2 ⟨s, c, b, hend, hm, hns, hid, hf, rfl⟩⟩
    · intro s r hend hn raw hm
      obtain ⟨s', c, b, hend', _, hns, _⟩ := (mem_submissions_iff hd).1 hm
      obtain ⟨rfl, _⟩ := hend.unique hend'
      obtain ⟨g, t, es, f, qs, hg, rfl, _, _, hl, rfl, _⟩ := exists_running hd hend
      have hj : f.job ∈ g.jobs := (g.ledger.serves.focus f (by rw [hl]; rfl)).1
      rw [(g.ledger.superseded f.job hj).2 (.inl hn)] at hns
      cases hns

/-- a match on a job is not handed in when the slot holds another of its identity -/
example : (Trial.overtaken
    |>.go (.endSearch 0 (.ok { Candidate.none with isMatch := true })) (by decide +kernel)
    |>.go .endRound (by decide +kernel)).submissions = [] := by decide +kernel

end History

end HeaderMiner.Miner
