import HeaderMiner.Proofs.Miner.OneLoop
import HeaderMiner.Proofs.Miner.Submission
import HeaderMiner.Proofs.Miner.Trial
/-!
# Errors that stop the miner

Of all errors only the fatal ones that polls meet stop the miner.  The first of them is kept until a
run returns, and returned then; it does not matter who has met it, nor whether the miner had been
stopped before.  A run returns when the loop has ended, and it waits for its own poll before it
leaves, so whatever these two have met is on the record by then.

That a run is not taken for another is a matter of its timer: the request that the timer has sent is
the run's own as long as it is open, and there is one such request at most (`Attended`).
-/

namespace HeaderMiner.Miner

/-! ## what a record tells of errors -/

def Event.defeat? : Event → Option Error
  | .answered _ a (.error e) => if a ≠ .caller ∧ e.isFatal = true then some e else none
  | _ => none

def Event.error? : Event → Option Error
  | .answered _ _ (.error e) | .ended _ (.error e) | .judged _ (.error e) => some e
  | _ => none

def Event.isReturn : Event → Bool
  | .returned _ => true
  | _ => false

def Move.isStartRun : Move → Bool
  | .startRun => true
  | _ => false

theorem Event.defeat?_eq_some_iff {ev : Event} {e : Error} :
    ev.defeat? = some e ↔
      ∃ id a, ev = .answered id a (.error e) ∧ a ≠ .caller ∧ e.isFatal = true := by
  constructor
  · intro h
    cases ev with
    | answered id a o =>
      cases o with
      | ok o => cases h
      | error e' =>
        rw [defeat?, Option.ite_none_right_eq_some] at h
        obtain ⟨⟨ha, hf⟩, he⟩ := h
        cases he
        exact ⟨id, a, rfl, ha, hf⟩
    | _ => cases h
  · rintro ⟨id, a, rfl, ha, hf⟩
    exact if_pos ⟨ha, hf⟩

theorem Event.defeat?_eq_none_iff {ev : Event} : ev.defeat? = none ↔ ¬ State.Defeat ev := by
  rw [Option.eq_none_iff_forall_ne_some]
  constructor
  · rintro h ⟨id, a, e, rfl, ha, hf⟩
    exact h e (defeat?_eq_some_iff.2 ⟨id, a, rfl, ha, hf⟩)
  · intro h e he
    obtain ⟨id, a, rfl, ha, hf⟩ := defeat?_eq_some_iff.1 he
    exact h ⟨id, a, e, rfl, ha, hf⟩

theorem Error.isFatal_iff {e : Error} :
    e.isFatal = true ↔ (∃ expected actual, e = .wrongNetwork expected actual) ∨
      (∃ name, e = .unsupportedBackend name) ∨ ∃ why, e = .config why := by
  cases e <;> simp [Error.isFatal]

/-! ## the error that is kept -/

/-- a miner keeps the first fatal error until a run returns it -/
def keepFirst (kept : Option Error) : Event → Option Error
  | .returned _ => none
  | ev => kept.or ev.defeat?

theorem foldl_keepFirst {es : List Event} (hr : ∀ e ∈ es, e.isReturn = false)
    (kept : Option Error) :
    es.foldl keepFirst kept = kept.or (es.findSome? Event.defeat?) := by
  induction es generalizing kept with
  | nil => exact Option.or_none.symm
  | cons e es ih =>
    have hk : keepFirst kept e = kept.or e.defeat? := by
      cases e with
      | returned r => cases hr _ List.mem_cons_self
      | _ => rfl
    rw [List.foldl_cons, ih (fun e he => hr e (List.mem_cons_of_mem _ he)), hk,
      List.findSome?_cons]
    cases kept with
    | some e' => rfl
    | none => cases hd : e.defeat? <;> simp

namespace State

variable {su : Setup} {s t : State} {m : Move} {es : List Event}

theorem fatal_resume (s : State) (a : Asker) : (s.resume a).fatal = s.fatal :=
  frame_resume State.fatal (fun _ _ _ => rfl) s a

theorem fatal_install (s : State) (w : Work) (clock : Int) :
    (s.install w clock).1.fatal = s.fatal := by
  obtain ⟨mining, loop, he⟩ := exists_install s w clock
  rw [he]
  rfl

/-- what a step keeps is told by the record that it leaves -/
theorem fatal_step (ht : Transition su s m t es) : t.fatal = es.foldl keepFirst s.fatal := by
  have quiet {es : List Event} (hr : ∀ e ∈ es, e.isReturn = false)
      (hd : ∀ e ∈ es, e.defeat? = none) : s.fatal = es.foldl keepFirst s.fatal := by
    rw [foldl_keepFirst hr, List.findSome?_eq_none_iff.2 hd, Option.or_none]
  cases ht with
  | @keep _ _ _ q o _ _ mild =>
    rw [fatal_resume]
    refine quiet (by simp [Event.isReturn]) ?_
    intro e he
    obtain rfl := List.mem_singleton.1 he
    exact Event.defeat?_eq_none_iff.2 (not_defeat_of_mild mild)
  | @fail _ _ _ q e _ _ contained fatal =>
    rw [fatal_resume]
    show s.fatal.or (some e) = _
    rw [foldl_keepFirst (by simp [Event.isReturn])]
    simp [Event.defeat?, contained, fatal]
  | @install _ _ clock q w _ _ =>
    rw [fatal_resume, fatal_install]
    refine quiet ?_ ?_
    · intro e he
      rcases mem_install he with rfl | rfl | rfl | rfl <;> rfl
    · intro e he
      rcases mem_install he with rfl | rfl | rfl | rfl <;> rfl
  | endRun => rfl
  | _ => exact quiet (by simp [ask, dispatch, Event.isReturn]) (by simp [ask, dispatch, Event.defeat?])

/-! ## the requests of a run -/

/-- how many runs have been started and have returned, and that an open request of the timer is the
one that the present run waits for -/
structure Attended (s : State) (started returned : Nat) : Prop where
  runs : started = returned + if s.run = .off then 0 else 1
  timer : ∀ q ∈ s.inquiries, q.asker = .timer → s.run = .polling
  once : ∀ q ∈ s.inquiries, ∀ p ∈ s.inquiries, q.asker = .timer → p.asker = .timer → q = p

variable {started returned : Nat}

theorem Attended.quiet (v : Attended s started returned) (hr : t.run = s.run)
    (hi : ∀ q ∈ t.inquiries, q ∈ s.inquiries) : Attended t started returned where
  runs := by rw [hr]; exact v.runs
  timer := by
    intro q hq ha
    rw [hr]
    exact v.timer q (hi q hq) ha
  once := fun q hq p hp => v.once q (hi q hq) p (hi p hp)

theorem Attended.go (v : Attended s started returned) {r : RunPoint} (hr : t.run = r)
    (hs : s.run ≠ .off) (ho : r ≠ .off) (hi : ∀ q ∈ t.inquiries, q ∈ s.inquiries)
    (ht : ∀ q ∈ t.inquiries, q.asker ≠ .timer) : Attended t started returned where
  runs := by
    rw [hr, if_neg ho]
    rw [v.runs, if_neg hs]
  timer := fun q hq ha => absurd ha (ht q hq)
  once := fun q hq p hp => v.once q (hi q hq) p (hi p hp)

theorem inquiries_resume (s : State) (a : Asker) : (s.resume a).inquiries = s.inquiries :=
  frame_resume State.inquiries (fun _ _ _ => rfl) s a

theorem run_resume (s : State) (a : Asker) :
    (s.resume a).run = if a = .timer then .waiting else s.run := by
  unfold resume
  split
  · rfl
  · rfl
  · next hn _ => rw [if_neg (by rintro rfl; exact hn rfl)]

theorem Attended.answered (v : Attended s started returned) {q : Inquiry} (hq : q ∈ s.inquiries)
    {u : State} (hu : u.run = s.run) (hi : u.inquiries = (s.without q).inquiries) :
    Attended (u.resume q.asker) started returned := by
  have sub : ∀ p ∈ (u.resume q.asker).inquiries, p ∈ s.inquiries ∧ p.id ≠ q.id := by
    intro p hp
    rw [inquiries_resume, hi] at hp
    obtain ⟨hp, hn⟩ := List.mem_filter.1 hp
    exact ⟨hp, bne_iff_ne.1 hn⟩
  by_cases ha : q.asker = .timer
  · -- the timer had no other request than this one
    have hr : (u.resume q.asker).run = .waiting := by rw [run_resume, if_pos ha]
    have hp : s.run = .polling := v.timer q hq ha
    refine v.go hr (by rw [hp]; nofun) nofun (fun p hp => (sub p hp).1) ?_
    intro p hp ht
    have he : q = p := v.once q hq p (sub p hp).1 ha ht
    exact (sub p hp).2 (congrArg Inquiry.id he.symm)
  · refine v.quiet ?_ fun p hp => (sub p hp).1
    rw [run_resume, if_neg ha, hu]

theorem Attended.ask (v : Attended s started returned) {a : Asker} (ha : a ≠ .timer)
    (hr : t.run = s.run) (hi : t.inquiries = s.inquiries ++ [⟨s.nextInquiry, a⟩]) :
    Attended t started returned := by
  have sub {q : Inquiry} (hq : q ∈ t.inquiries) (ht : q.asker = .timer) : q ∈ s.inquiries := by
    rw [hi] at hq
    rcases List.mem_append.1 hq with hq | hq
    · exact hq
    · rw [List.mem_singleton.1 hq] at ht
      exact absurd ht ha
  refine ⟨by rw [hr]; exact v.runs, ?_, ?_⟩
  · intro q hq ht
    rw [hr]
    exact v.timer q (sub hq ht) ht
  · intro q hq p hp ht ht'
    exact v.once q (sub hq ht) p (sub hp ht') ht ht'

/-- the timer fires when none of its requests is open -/
theorem Attended.fire (v : Attended s started returned) (hw : s.run = .waiting) :
    Attended (State.ask { s with run := .polling } .timer).1 started returned := by
  have none (q : Inquiry) (hq : q ∈ s.inquiries) (ht : q.asker = .timer) : False := by
    have hp : s.run = .polling := v.timer q hq ht
    rw [hw] at hp
    cases hp
  have new {q : Inquiry} (hq : q ∈ s.inquiries ++ [⟨s.nextInquiry, .timer⟩])
      (ht : q.asker = .timer) : q = ⟨s.nextInquiry, .timer⟩ := by
    rcases List.mem_append.1 hq with hq | hq
    · exact (none q hq ht).elim
    · exact List.mem_singleton.1 hq
  refine ⟨?_, fun _ _ _ => rfl, ?_⟩
  · rw [v.runs, hw]
    rfl
  · intro q hq p hp ht ht'
    rw [new hq ht, new hp ht']

theorem run_install (s : State) (w : Work) (clock : Int) :
    (s.install w clock).1.run = s.run ∧ (s.install w clock).1.inquiries = s.inquiries := by
  obtain ⟨mining, loop, he⟩ := exists_install s w clock
  rw [he]
  exact ⟨rfl, rfl⟩

theorem Attended.step (v : Attended s started returned) (ht : Transition su s m t es) :
    Attended t (started + [m].countP Move.isStartRun) (returned + es.countP Event.isReturn) := by
  have same : ∀ q ∈ s.inquiries, q ∈ s.inquiries := fun _ h => h
  cases ht with
  | tick => exact v.ask (a := .caller) nofun rfl rfl
  | poll => exact v.ask (a := .poller) nofun rfl rfl
  | keep open_ => exact v.answered (List.mem_of_find?_eq_some open_) rfl rfl
  | fail open_ => exact v.answered (List.mem_of_find?_eq_some open_) rfl rfl
  | @install _ _ clock q w open_ _ =>
    obtain ⟨hr, hi⟩ := run_install (s.without q) w clock
    have hn : (((s.without q).install w clock).2 ++
        [Event.answered q.id q.asker (.ok .newJob)]).countP Event.isReturn = 0 := by
      rw [List.countP_eq_zero]
      intro e he
      rcases mem_install he with rfl | rfl | rfl | rfl <;> exact Bool.false_ne_true
    rw [hn]
    exact v.answered (List.mem_of_find?_eq_some open_) hr hi
  | inquire => exact v.ask (a := .loop) nofun rfl rfl
  | fire waiting => exact v.fire waiting
  | startRun off =>
    refine ⟨?_, ?_, v.once⟩
    · rw [v.runs, if_pos off]
      rfl
    · intro q hq ha
      have hp : s.run = .polling := v.timer q hq ha
      rw [off] at hp
      cases hp
  | leaveRun waiting =>
    have hn (q : Inquiry) (hq : q ∈ s.inquiries) (ha : q.asker = .timer) : False := by
      have hp : s.run = .polling := v.timer q hq ha
      rw [waiting] at hp
      cases hp
    exact v.go rfl (by rw [waiting]; nofun) nofun same hn
  | endRun leaving =>
    refine ⟨?_, ?_, v.once⟩
    · rw [v.runs, leaving]
      rfl
    · intro q hq ha
      have hp : s.run = .polling := v.timer q hq ha
      rw [leaving] at hp
      cases hp
  | _ => exact v.quiet rfl same

/-! ## errors that do not stop the miner -/

/-- what an error leaves alone that does not stop the miner -/
structure Spares (s t : State) : Prop where
  slot : t.slot = s.slot
  offset : t.offset = s.offset
  tokens : t.tokens = s.tokens
  stopped : t.isStopped = s.isStopped

theorem spares_of_error (ht : Transition su s m t es) {ev : Event} (hm : ev ∈ es)
    (he : ev.error? ≠ none) (hd : ¬ Defeat ev) : Spares s t := by
  cases ht with
  | @keep _ _ _ q _ _ _ _ =>
    obtain ⟨run, loop, hr, _⟩ := resume_eq (s.without q) q.asker
    rw [hr]
    exact ⟨rfl, rfl, rfl, rfl⟩
  | @fail _ _ _ q e _ _ contained fatal =>
    -- of the two events, the answer is a defeat and the other tells of no error
    rcases List.mem_cons.1 hm with rfl | hm
    · exact absurd ⟨_, _, _, rfl, contained, fatal⟩ hd
    · rw [List.mem_singleton.1 hm] at he
      exact absurd rfl he
  | install =>
    rcases mem_install hm with rfl | rfl | rfl | rfl <;> exact absurd rfl he
  | pause | inquire | goOn => exact ⟨rfl, rfl, rfl, rfl⟩
  | submit =>
    rcases List.mem_pair.1 hm with rfl | rfl <;> exact absurd rfl he
  | tick | poll | pass | misfit | dispatch | stop | fire | leaveRun | endRun =>
    rw [List.mem_singleton.1 hm] at he
    exact absurd rfl he
  | _ => cases hm

end State

namespace History

variable {su : Setup}

def firstDefeat (h : History su) : Option Error := h.record.findSome? Event.defeat?

theorem fatal_eq (h : History su) : h.state.fatal = h.record.foldl keepFirst none := by
  induction h using induction with
  | start => rfl
  | extend h m t es hs ih =>
    show t.fatal = (h.record ++ es).foldl keepFirst none
    rw [State.fatal_step (State.transition_of_step hs), ih, List.foldl_append]

theorem attended (h : History su) :
    State.Attended h.state (h.moves.countP Move.isStartRun) (h.record.countP Event.isReturn) := by
  induction h using induction with
  | start => exact ⟨rfl, nofun, nofun⟩
  | extend h m t es hs ih =>
    show State.Attended t ((h.moves ++ [m]).countP _) ((h.record ++ es).countP _)
    rw [List.countP_append, List.countP_append]
    exact ih.step (State.transition_of_step hs)

/-- while the first run goes on, the miner keeps the first fatal error of all -/
theorem fatal_of_first {h : History su} (single : h.moves.countP Move.isStartRun ≤ 1)
    (hr : h.state.run ≠ .off) : h.state.fatal = h.firstDefeat := by
  have hn : h.record.countP Event.isReturn = 0 := by
    have hc := h.attended.runs
    rw [if_neg hr] at hc
    omega
  have hf : ∀ e ∈ h.record, e.isReturn = false := by
    intro e he
    rw [← Bool.not_eq_true]
    exact List.countP_eq_zero.1 hn e he
  rw [fatal_eq, foldl_keepFirst hf]
  rfl

theorem idle_of_endRun {h : History su} (he : h.state.loop.isAlive = false) :
    (∃ v, h.state.loop = .broken v) ∨
      (h.state.loop = .absent ∨ h.state.loop = .finished) ∧ h.state.mining = false := by
  cases hl : h.state.loop with
  | broken v => exact .inl ⟨v, rfl⟩
  | absent | finished =>
    refine .inr ⟨by simp, ?_⟩
    rw [← Bool.not_eq_true]
    intro hm
    rcases h.lifetime.begun hm with hb | ⟨v, hb⟩
    · rw [he] at hb
      cases hb
    · rw [hl] at hb
      cases hb
  | _ => rw [hl] at he; cases he

/-- what the only run returns is the first fatal error that a poll has met until then -/
theorem returned_of_single {h : History su} (single : h.moves.countP Move.isStartRun ≤ 1)
    {r : Except Error Unit} (hm : .returned r ∈ h.record) :
    ∃ g t, h.Makes g .endRun ∧ g.state.step su .endRun = some (t, [.returned r]) ∧
      ((∀ e, r = .error e ↔ g.firstDefeat = some e) ∧ (r = .ok () ↔ g.firstDefeat = none)) ∧
      ((∃ v, t.loop = .broken v) ∨ (t.loop = .absent ∨ t.loop = .finished) ∧ t.mining = false) := by
  obtain ⟨g, m, t, es, hg, hs, he⟩ := mem_record_iff.1 hm
  have ht : State.Transition su g.state m t es := State.transition_of_step hs
  cases ht with
  | endRun leaving ended =>
    have hp : g.moves.countP Move.isStartRun ≤ 1 :=
      Nat.le_trans (earlier_of_makes hg).sublist.countP_le single
    have hf : g.state.fatal = g.firstDefeat := fatal_of_first hp (by rw [leaving]; nofun)
    obtain rfl := Event.returned.inj (List.mem_singleton.1 he)
    refine ⟨g, _, hg, hs, ?_, idle_of_endRun ended⟩
    rw [← hf]
    cases g.state.fatal <;> simp
  | install => rcases State.mem_install he with he | he | he | he <;> cases he
  | _ => simp [State.ask, State.dispatch] at he

/-- Polls stop the miner by the fatal errors they meet and by no others; an error of a round or of a
submission, of whatever kind, stops nothing and leaves slot and clock alone.  A run that has left
its timer returns once the loop has ended, and nothing is mined then; the only run there is returns
the first fatal error that any poll has met until then, before a stop or after it. -/
theorem run_returns_first_defeat (h : History su) :
    (∀ e : Error, e.isFatal = true ↔ (∃ expected actual, e = .wrongNetwork expected actual) ∨
      (∃ name, e = .unsupportedBackend name) ∨ ∃ why, e = .config why) ∧
    (h.state.isStopped = true ↔ .stop ∈ h.moves ∨ ∃ e ∈ h.record, State.Defeat e) ∧
    (∀ m t es, h.state.step su m = some (t, es) → m ≠ .stop → h.state.isStopped = false →
      (t.isStopped = true ↔ ∃ e ∈ es, State.Defeat e)) ∧
    (∀ m t es, h.state.step su m = some (t, es) → ∀ ev ∈ es, ev.error? ≠ none →
      ¬ State.Defeat ev → h.state.Spares t) ∧
    (h.state.run = .leaving → h.state.loop.isAlive = false →
      ∃ t r, h.state.step su .endRun = some (t, [.returned r])) ∧
    (h.moves.countP Move.isStartRun ≤ 1 → ∀ r, .returned r ∈ h.record →
      ∃ g t, h.Makes g .endRun ∧ g.state.step su .endRun = some (t, [.returned r]) ∧
        ((∀ e, r = .error e ↔ g.firstDefeat = some e) ∧ (r = .ok () ↔ g.firstDefeat = none)) ∧
        ((∃ v, t.loop = .broken v) ∨
          (t.loop = .absent ∨ t.loop = .finished) ∧ t.mining = false)) := by
  refine ⟨fun e => Error.isFatal_iff, h.isStopped_iff, ?_, ?_, ?_,
    fun single r => returned_of_single single⟩
  · intro m t es hs hm hr
    rw [State.isStopped_step h.ledger (State.transition_of_step hs), hr]
    simp [hm]
  · intro m t es hs ev hm he hd
    exact State.spares_of_error (State.transition_of_step hs) hm he hd
  · intro leaving ended
    exact ⟨_, _, if_pos ⟨leaving, by rw [ended]; rfl⟩⟩

/-- the timer's poll meets a fatal error when the miner has been stopped already -/
example : (State.fresh.steps Trial.setup [.startRun, .fire, .stop,
    .answer 0 (.error (.config "no node")) 0, .leaveRun, .endRun]).map (·.2.getLast?) =
      some (some (.returned (.error (.config "no node")))) := rfl

end History

end HeaderMiner.Miner
