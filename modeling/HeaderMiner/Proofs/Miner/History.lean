import Mathlib.Data.List.Induction
import HeaderMiner.Proofs.Miner.Transition
/-!
# Histories

A history is a sequence of moves that a new miner can make one after the other, with the state it
ends in and the record it leaves.  Whatever holds of a new miner and is kept by each further step
holds of every history (`History.induction`), and whatever is on the record was put there by one
step of the history (`History.mem_record_iff`).
-/

namespace HeaderMiner.Miner

structure History (su : Setup) where
  moves : List Move
  state : State
  record : List Event
  steps_eq : State.fresh.steps su moves = some (state, record)

namespace History

variable {su : Setup}

def start (su : Setup) : History su := ⟨[], .fresh, [], rfl⟩

def extend (h : History su) (m : Move) (t : State) (es : List Event)
    (hs : h.state.step su m = some (t, es)) : History su where
  moves := h.moves ++ [m]
  state := t
  record := h.record ++ es
  steps_eq := by
    have h1 : h.state.steps su [m] = some (t, es) := by
      rw [State.steps_cons_eq_some]
      exact ⟨t, es, [], hs, rfl, (List.append_nil es).symm⟩
    exact State.steps_append h.steps_eq h1

@[ext] theorem ext {g h : History su} (hm : g.moves = h.moves) : g = h := by
  obtain ⟨ms, s, es, hs⟩ := g
  obtain ⟨ns, t, fs, ht⟩ := h
  obtain rfl : ms = ns := hm
  obtain ⟨rfl, rfl⟩ := Prod.mk.inj (Option.some.inj (hs.symm.trans ht))
  rfl

theorem exists_extend {ms : List Move} {m : Move} {t : State} {gs : List Event}
    (h : State.fresh.steps su (ms ++ [m]) = some (t, gs)) :
    ∃ (g : History su) (es : List Event), g.state.step su m = some (t, es) ∧
      g.moves = ms ∧ gs = g.record ++ es := by
  suffices ∀ s : State, s.steps su (ms ++ [m]) = some (t, gs) →
      ∃ u fs es, s.steps su ms = some (u, fs) ∧ u.step su m = some (t, es) ∧ gs = fs ++ es by
    obtain ⟨u, fs, es, hu, hm, rfl⟩ := this _ h
    exact ⟨⟨ms, u, fs, hu⟩, es, hm, rfl, rfl⟩
  clear h
  intro s h
  induction ms generalizing s gs with
  | nil =>
    obtain ⟨u, es, fs, hs, hu, rfl⟩ := State.steps_cons_eq_some.1 h
    obtain ⟨rfl, rfl⟩ := Prod.mk.inj (Option.some.inj hu)
    exact ⟨s, [], es, rfl, hs, by simp⟩
  | cons n ms ih =>
    obtain ⟨u, es, fs, hs, hu, rfl⟩ := State.steps_cons_eq_some.1 h
    obtain ⟨v, ks, ls, hv, hm, rfl⟩ := ih _ hu
    exact ⟨v, es ++ ks, ls, State.steps_cons_eq_some.2 ⟨u, es, ks, hs, hv, rfl⟩, hm,
      (List.append_assoc ..).symm⟩

@[elab_as_elim]
theorem induction {P : History su → Prop} (start : P (start su))
    (extend : ∀ (h : History su) (m : Move) (t : State) (es : List Event)
      (hs : h.state.step su m = some (t, es)), P h → P (h.extend m t es hs))
    (h : History su) : P h := by
  obtain ⟨ms, t, gs, ht⟩ := h
  induction ms using List.reverseRecOn generalizing t gs with
  | nil =>
    obtain ⟨rfl, rfl⟩ := Prod.mk.inj (Option.some.inj ht)
    exact start
  | append_singleton ms m ih =>
    obtain ⟨g, es, hs, rfl, rfl⟩ := exists_extend ht
    exact extend g m t es hs (ih _ _ g.steps_eq)

/-! ## steps of a history -/

/-- a history has come by `g` and has gone on from there with a move -/
def Makes (h g : History su) (m : Move) : Prop := g.moves ++ [m] <+: h.moves

theorem not_makes_start (g : History su) (m : Move) : ¬ (start su).Makes g m := by
  intro h
  have hl : (g.moves ++ [m]).length ≤ 0 := h.length_le
  simp at hl

theorem makes_extend {h g : History su} {m n : Move} {t : State} {es : List Event}
    {hs : h.state.step su m = some (t, es)} :
    (h.extend m t es hs).Makes g n ↔ h.Makes g n ∨ g = h ∧ n = m := by
  show g.moves ++ [n] <+: h.moves ++ [m] ↔ _
  rw [List.prefix_concat_iff, or_comm, List.append_singleton_inj]
  exact or_congr_right (and_congr_left fun _ => ⟨ext, congrArg moves⟩)

/-- of two steps of a history with the same move, one comes before the other or they are one -/
theorem Makes.total {h g g' : History su} {m : Move} (hg : h.Makes g m) (hg' : h.Makes g' m) :
    g = g' ∨ g'.Makes g m ∨ g.Makes g' m := by
  induction h using induction with
  | start => exact absurd hg (not_makes_start g m)
  | extend h n t es hs ih =>
    rcases makes_extend.1 hg with hg | ⟨rfl, _⟩
    · rcases makes_extend.1 hg' with hg' | ⟨rfl, _⟩
      · exact ih hg hg'
      · exact .inr (.inl hg)
    · rcases makes_extend.1 hg' with hg' | ⟨rfl, _⟩
      · exact .inr (.inr hg')
      · exact .inl rfl

theorem mem_record_iff {h : History su} {e : Event} :
    e ∈ h.record ↔
      ∃ (g : History su) (m : Move) (t : State) (es : List Event),
        h.Makes g m ∧ g.state.step su m = some (t, es) ∧ e ∈ es := by
  induction h using induction with
  | start =>
    constructor
    · intro he
      cases he
    · rintro ⟨g, m, _, _, hg, _⟩
      exact absurd hg (not_makes_start g m)
  | extend h m t es hs ih =>
    show e ∈ h.record ++ es ↔ _
    rw [List.mem_append, ih]
    constructor
    · rintro (⟨g, n, u, fs, hg, hu, he⟩ | he)
      · exact ⟨g, n, u, fs, makes_extend.2 (.inl hg), hu, he⟩
      · exact ⟨h, m, t, es, makes_extend.2 (.inr ⟨rfl, rfl⟩), hs, he⟩
    · rintro ⟨g, n, u, fs, hg, hu, he⟩
      rcases makes_extend.1 hg with hg | ⟨rfl, rfl⟩
      · exact .inl ⟨g, n, u, fs, hg, hu, he⟩
      · obtain ⟨rfl, rfl⟩ := Prod.mk.inj (Option.some.inj (hs.symm.trans hu))
        exact .inr he

end History

end HeaderMiner.Miner
