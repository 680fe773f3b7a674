import HeaderMiner.Proofs.Miner.History
import HeaderMiner.Proofs.Miner.Operations
import HeaderMiner.Proofs.Worker.Blocks
import HeaderMiner.Proofs.Worker.Fanout
/-!
# What breaks an assertion

The loop asserts that the time which it writes fits 48 bits and that a match makes a block.  It can
break on nothing else: a loop that is broken has read a clock beyond 48 bits, or was given a proof
that is not whole (`faults_of_broken`).  The backends that there are give none, so with them and a
clock in its bounds no loop ever breaks (`not_broken`).
-/

namespace HeaderMiner

theorem Header.lt_of_advance_eq_error {h : Header} {now : Nat} {network : Network} {v : Violation}
    (ha : h.advance now network = .error v) : maxTime < now := by
  unfold advance at ha
  split at ha
  · unfold setTime at ha
    split at ha
    · cases ha
    · next hl => exact Nat.lt_of_not_le hl
  · cases ha

namespace Miner

theorem Search.phase_ofRequests {job : Token} {ts : Tokens} {rs : List Request} {q : Search}
    (h : q ∈ (ofRequests job ts rs).1) : q.phase = .waiting := by
  induction rs generalizing ts with
  | nil => cases h
  | cons r rs ih =>
    rw [ofRequests_cons] at h
    rcases List.mem_cons.1 h with rfl | h
    · rfl
    · exact ih h

theorem Search.phase_of_result? {q : Search} {r : Except Error Candidate}
    (h : q.result? = some r) : q.phase = .ended r := by
  unfold result? at h
  split at h
  · next hp => rw [hp, Option.some.inj h]
  · cases h

theorem Search.phases_of_results {qs : List Search} {rs : List (Except Error Candidate)}
    (h : qs.mapM result? = some rs) : qs.map (·.phase) = rs.map .ended := by
  induction qs generalizing rs with
  | nil =>
    cases h
    rfl
  | cons q qs ih =>
    rw [List.mapM_cons] at h
    obtain ⟨a, ha, h⟩ := Option.bind_eq_some_iff.1 h
    obtain ⟨as, hs, h⟩ := Option.bind_eq_some_iff.1 h
    cases h
    rw [List.map_cons, List.map_cons, phase_of_result? ha, ih hs]

theorem Search.exists_of_mem_results {qs : List Search} {rs : List (Except Error Candidate)}
    {r : Except Error Candidate} (h : qs.mapM result? = some rs) (hr : r ∈ rs) :
    ∃ q ∈ qs, q.phase = .ended r := by
  have hp : .ended r ∈ qs.map (·.phase) := by
    rw [phases_of_results h]
    exact List.mem_map_of_mem hr
  exact List.mem_map.1 hp

theorem Search.exists_of_mem_searches {qs : List Search} {rs : List (Except Error Candidate)}
    {q : Search} (h : qs.mapM result? = some rs) (hq : q ∈ qs) : ∃ r, q.phase = .ended r := by
  have hp : q.phase ∈ rs.map .ended := by
    rw [← phases_of_results h]
    exact List.mem_map_of_mem hq
  obtain ⟨r, _, he⟩ := List.mem_map.1 hp
  exact ⟨r, he.symm⟩

namespace State

variable {su : Setup} {s t : State} {m : Move} {es : List Event} {ms : List Move}

theorem searches_resume (s : State) (a : Asker) :
    (s.resume a).loop.searches = s.loop.searches := loop_resume Loop.searches (fun _ => rfl) s a

theorem searches_install (s : State) (w : Work) (clock : Int) :
    (s.install w clock).1.loop.searches ⊆ s.loop.searches := by
  rcases loop_install_eq_or s w clock with hl | hl
  · rw [hl]
    exact List.Subset.refl _
  · rw [hl]
    exact List.nil_subset _

/-- a search of the open round has been there before, is new and waits, or has come to another
phase; before it holds its device it fails only where it is refused -/
theorem mem_searches_step (ht : Transition su s m t es) {p : Search}
    (hp : p ∈ t.loop.searches) :
    p ∈ s.loop.searches ∨ p.phase = .waiting ∨
      ∃ q ∈ s.loop.searches, ∃ phase, p = { q with phase } ∧
        ((∃ e, phase = .ended (.error e) ∧ q.phase = .waiting ∧ (su.check q.request = .error e ∨
            s.registry.start s.tokens q.request.device q.parent = .error e)) ∨
          (∃ n, phase = .running (n :: q.parent)) ∨
          ∃ i r, m = .endSearch i r ∧ phase = .ended r) := by
  have set {f : Focus} {n i : Nat} {qs : List Search} {q : Search} {phase : Phase}
      (loop : s.loop = .round f n qs) (search : qs[i]? = some q)
      (hp : p ∈ qs.set i { q with phase }) :
      p ∈ s.loop.searches ∨ q ∈ s.loop.searches ∧ p = { q with phase } := by
    rw [loop]
    rcases List.mem_or_eq_of_mem_set hp with hp | rfl
    · exact .inl hp
    · exact .inr ⟨List.mem_of_getElem? search, rfl⟩
  cases ht with
  | tick | poll | stop | startRun | fire | leaveRun | endRun => exact .inl hp
  | @keep _ _ _ q _ _ _ _ =>
    rw [searches_resume] at hp
    exact .inl hp
  | @fail _ _ _ q e _ _ _ _ =>
    rw [searches_resume] at hp
    exact .inl hp
  | @install _ _ clock q w _ _ =>
    rw [searches_resume] at hp
    exact .inl (searches_install (s.without q) w clock hp)
  | dispatch => exact .inr (.inl (Search.phase_ofRequests hp))
  | reject loop search waiting rejected =>
    rcases set loop search hp with hp | ⟨hq, rfl⟩
    · exact .inl hp
    · exact .inr (.inr ⟨_, hq, _, rfl, .inl ⟨_, rfl, waiting, rejected.imp_right And.right⟩⟩)
  | begin loop search _ _ started =>
    obtain ⟨_, rfl, rfl, rfl⟩ := Registry.start_eq_ok_iff.1 started
    rcases set loop search hp with hp | ⟨hq, rfl⟩
    · exact .inl hp
    · exact .inr (.inr ⟨_, hq, _, rfl, .inr (.inl ⟨_, rfl⟩)⟩)
  | release loop search =>
    rcases set loop search hp with hp | ⟨hq, rfl⟩
    · exact .inl hp
    · exact .inr (.inr ⟨_, hq, _, rfl, .inr (.inr ⟨_, _, rfl, rfl⟩)⟩)
  | enter | miss | finish | overrun | pause | pass | misfit | submit | endPause | inquire | goOn =>
    cases hp

/-- the candidates of the open round are those that searches have come back with -/
def Returns (s : State) (ms : List Move) : Prop :=
  ∀ q ∈ s.loop.searches, ∀ c, q.phase = .ended (.ok c) → ∃ i, .endSearch i (.ok c) ∈ ms

theorem Returns.step (v : Returns s ms) (ht : Transition su s m t es) : Returns t (ms ++ [m]) := by
  intro p hp c hc
  rcases mem_searches_step ht hp with hp | hw | ⟨q, _, phase, rfl, he | hr | ⟨i, r, rfl, he⟩⟩
  · obtain ⟨i, hi⟩ := v p hp c hc
    exact ⟨i, List.mem_append_left _ hi⟩
  · rw [hw] at hc
    cases hc
  · obtain ⟨e, rfl, _⟩ := he
    cases hc
  · obtain ⟨n, rfl⟩ := hr
    cases hc
  · obtain rfl : r = .ok c := Phase.ended.inj (he.symm.trans hc)
    exact ⟨i, List.mem_append_right _ (List.mem_singleton_self _)⟩

/-- a loop that breaks has read a clock beyond its bounds, or has a match that makes no block -/
theorem broken_step (ht : Transition su s m t es) {v : Violation} (hb : t.loop = .broken v) :
    s.loop = .broken v ∨ (∃ mo, m = .turn mo ∧ maxTime < s.now mo.clock) ∨
      ∃ q ∈ s.loop.searches, ∃ c header, q.phase = .ended (.ok c) ∧
        c.finalize header = .error v := by
  have resume (u : State) (a : Asker) (hu : (u.resume a).loop = .broken v) :
      u.loop = .broken v := by
    obtain ⟨run, loop, he, hl⟩ := resume_eq u a
    rw [he] at hu
    rcases hl with rfl | ⟨f, _, rfl⟩
    · exact hu
    · cases hu
  cases ht with
  | tick | poll | stop | startRun | fire | leaveRun | endRun => exact .inl hb
  | @keep _ _ _ q _ _ _ _ => exact .inl (resume (s.without q) q.asker hb)
  | @fail _ _ _ q e _ _ _ _ => exact .inl (resume ((s.without q).fail e) q.asker hb)
  | @install _ _ clock q w _ _ =>
    have hi := resume _ q.asker hb
    rcases loop_install_eq_or (s.without q) w clock with hl | hl
    · exact .inl (hl.symm.trans hi)
    · cases hl.symm.trans hi
  | overrun _ _ advanced =>
    exact .inr (.inl ⟨_, rfl, Header.lt_of_advance_eq_error advanced⟩)
  | @misfit f n qs rs c v loop ended settled worthy finalized =>
    cases hb
    obtain ⟨hc, _⟩ := Bool.and_eq_true_iff.1 worthy
    have hm : .ok c ∈ rs := Round.mem_of_settle settled hc
    obtain ⟨q, hq, hp⟩ := Search.exists_of_mem_results ended hm
    exact .inr (.inr ⟨q, by rw [loop]; exact hq, c, f.header, hp, finalized⟩)
  | enter | miss | finish | dispatch | reject | begin | release | pause | pass | submit | endPause
  | inquire | goOn => cases hb

end State

namespace History

variable {su : Setup} {h : History su}

theorem returns (h : History su) : State.Returns h.state h.moves := by
  induction h using induction with
  | start =>
    intro q hq
    cases hq
  | extend h m t es hs ih => exact ih.step (State.transition_of_step hs)

/-- what a loop can break on: a search that comes back with a proof that is not whole, or a turn of
the loop at a time beyond 48 bits -/
def Faults (h : History su) : Prop :=
  (∃ i c, .endSearch i (.ok c) ∈ h.moves ∧ ¬ c.IsWhole) ∨
    ∃ g m, h.Makes g (.turn m) ∧ maxTime < g.state.now m.clock

theorem faults_of_broken {v : Violation} (hb : h.state.loop = .broken v) : h.Faults := by
  induction h using induction with
  | start => cases hb
  | extend h m t es hs ih =>
    rcases State.broken_step (State.transition_of_step hs) hb with hb | ⟨mo, rfl, hc⟩ | hq
    · rcases ih hb with ⟨i, c, hm, hw⟩ | ⟨g, mo, hg, hc⟩
      · exact .inl ⟨i, c, List.mem_append_left _ hm, hw⟩
      · exact .inr ⟨g, mo, makes_extend.2 (.inl hg), hc⟩
    · exact .inr ⟨h, mo, makes_extend.2 (.inr ⟨rfl, rfl⟩), hc⟩
    · obtain ⟨q, hq, c, header, hp, hf⟩ := hq
      obtain ⟨i, hi⟩ := h.returns q hq c hp
      refine .inl ⟨i, c, List.mem_append_left _ hi, ?_⟩
      rw [← Candidate.exists_finalize_iff (h := header)]
      rintro ⟨b, hb⟩
      rw [hb] at hf
      cases hf

/-- with a backend of those that there are, and a clock in its bounds, no loop ever breaks -/
theorem not_broken {b : Backend}
    (results : ∀ i c, .endSearch i (.ok c) ∈ h.moves →
      ∃ invocation course, (b.conclude invocation course).1 = .ok c)
    (clock : ∀ g m, h.Makes g (.turn m) → g.state.now m.clock ≤ maxTime) (v : Violation) :
    h.state.loop ≠ .broken v := by
  intro hb
  rcases faults_of_broken hb with ⟨i, c, hm, hw⟩ | ⟨g, m, hg, hc⟩
  · obtain ⟨invocation, course, he⟩ := results i c hm
    exact hw (Backend.isWhole_of_conclude he)
  · exact Nat.not_lt.2 (clock g m hg) hc

end History

end Miner

end HeaderMiner
