import Mathlib.Data.List.Induction
/-!
# Traces

A trace is a sequence of moves that a system can make one after the other from its start, with the
state that it ends in.  What holds at the start and is kept by each further move holds of every trace
(`Trace.induction`).  A trace makes a move at each of its earlier points (`Trace.Makes`), and at each of
them it was a shorter trace.
-/

namespace HeaderMiner

/-- a trace of the system that begins in a state and goes on from state to state -/
structure Trace {σ μ : Type} (next : σ → μ → Option σ) (first : σ) where
  moves : List μ
  state : σ
  follows : moves.foldlM next first = some state

namespace Trace

variable {σ μ : Type} {next : σ → μ → Option σ} {first : σ}

def start : Trace next first := ⟨[], first, rfl⟩

def extend (h : Trace next first) (m : μ) (t : σ) (ht : next h.state m = some t) :
    Trace next first where
  moves := h.moves ++ [m]
  state := t
  follows := by
    rw [List.foldlM_append, h.follows]
    exact (Option.bind_some ..).trans ((List.foldlM_cons ..).trans (by rw [ht]; rfl))

/-- a trace that goes on with one more move that is possible -/
def go (h : Trace next first) (m : μ) (hm : (next h.state m).isSome = true) : Trace next first :=
  h.extend m ((next h.state m).get hm) (Option.some_get hm).symm

@[ext] theorem ext {g h : Trace next first} (hm : g.moves = h.moves) : g = h := by
  obtain ⟨ms, s, hs⟩ := g
  obtain ⟨ns, t, ht⟩ := h
  obtain rfl : ms = ns := hm
  obtain rfl : s = t := Option.some.inj (hs.symm.trans ht)
  rfl

theorem exists_extend {ms : List μ} {m : μ} {t : σ} (h : (ms ++ [m]).foldlM next first = some t) :
    ∃ g : Trace next first, next g.state m = some t ∧ g.moves = ms := by
  rw [List.foldlM_append] at h
  obtain ⟨s, hs, ht⟩ := Option.bind_eq_some_iff.1 h
  rw [List.foldlM_cons] at ht
  obtain ⟨u, hu, hlast⟩ := Option.bind_eq_some_iff.1 ht
  obtain rfl : u = t := Option.some.inj hlast
  exact ⟨⟨ms, s, hs⟩, hu, rfl⟩

@[elab_as_elim]
theorem induction {P : Trace next first → Prop} (start : P start)
    (extend : ∀ (h : Trace next first) (m : μ) (t : σ) (ht : next h.state m = some t),
      P h → P (h.extend m t ht))
    (h : Trace next first) : P h := by
  obtain ⟨ms, t, ht⟩ := h
  induction ms using List.reverseRecOn generalizing t with
  | nil =>
    obtain rfl : first = t := Option.some.inj ht
    exact start
  | append_singleton ms m ih =>
    obtain ⟨g, hs, rfl⟩ := exists_extend ht
    exact extend g m t hs (ih _ g.follows)

/-- a trace has come by `g` and has gone on from there with a move -/
def Makes (h g : Trace next first) (m : μ) : Prop := g.moves ++ [m] <+: h.moves

theorem not_makes_start (g : Trace next first) (m : μ) : ¬ start.Makes g m := by
  intro h
  have hl : (g.moves ++ [m]).length ≤ 0 := h.length_le
  simp at hl

theorem makes_extend {h g : Trace next first} {m n : μ} {t : σ} {ht : next h.state m = some t} :
    (h.extend m t ht).Makes g n ↔ h.Makes g n ∨ g = h ∧ n = m := by
  show g.moves ++ [n] <+: h.moves ++ [m] ↔ _
  rw [List.prefix_concat_iff, or_comm, List.append_singleton_inj]
  exact or_congr_right (and_congr_left fun _ => ⟨ext, congrArg moves⟩)

theorem Makes.extend {h g : Trace next first} {n : μ} (hg : h.Makes g n) {m : μ} {t : σ}
    (ht : next h.state m = some t) : (h.extend m t ht).Makes g n :=
  makes_extend.2 (.inl hg)

end Trace

end HeaderMiner
