import HeaderMiner.Error
/-!
# Checks in an order

Where checks are made one after another, the first that fails decides which error is reported, and
what the later ones would say does not matter.  So a check is taken as the errors that it may end
with: none if it passes, and sometimes one of several if their texts are left open.  Checks decide a
result (`Check.Decides`) if it is there exactly where all of them pass, and is an error of the first
that does not pass otherwise; steps with one check each make up a sequence that is decided by their
checks in order (`Check.Decides.bind`).
-/

namespace HeaderMiner

theorem bind_eq_ok_iff {ε α β : Type} {x : Except ε α} {f : α → Except ε β} {b : β} :
    (x >>= f) = .ok b ↔ ∃ a, x = .ok a ∧ f a = .ok b := by
  cases x with
  | error e =>
    constructor
    · intro h
      cases h
    · rintro ⟨_, h, _⟩
      cases h
  | ok a =>
    constructor
    · intro h
      exact ⟨a, rfl, h⟩
    · rintro ⟨_, h, hf⟩
      cases h
      exact hf

theorem mapError_eq_ok_iff {ε δ α : Type} {x : Except ε α} {f : ε → δ} {a : α} :
    x.mapError f = .ok a ↔ x = .ok a := by
  cases x with
  | error e => exact iff_of_false nofun nofun
  | ok b =>
    constructor
    · rintro ⟨⟩
      rfl
    · rintro ⟨⟩
      rfl

/-- a check, as the errors that it may end with -/
abbrev Check := Error → Prop

namespace Check

/-- whether a check ends with no error -/
def Passes (c : Check) : Prop := ∀ e, ¬c e

/-- whether an error is one of the first check that does not pass -/
def First : List Check → Error → Prop
  | [], _ => False
  | c :: cs, e => c e ∨ c.Passes ∧ First cs e

/-- whether checks in their order decide a result -/
structure Decides {α : Type} (cs : List Check) (x : Except Error α) : Prop where
  first : ∀ e, x = .error e → First cs e
  passes : ∀ a, x = .ok a → ∀ c ∈ cs, c.Passes

variable {α β : Type} {c : Check} {cs : List Check} {x : Except Error α} {f : α → Except Error β}

theorem decides_ok (a : α) : Decides [] (.ok a) := ⟨nofun, fun _ _ _ h => nomatch h⟩

theorem decides_step (hfirst : ∀ e, x = .error e → c e) (hpasses : ∀ a, x = .ok a → c.Passes) :
    Decides [c] x where
  first e h := .inl (hfirst e h)
  passes a h := List.forall_mem_singleton.2 (hpasses a h)

/-- a step and what follows are decided by the step's check and those that follow -/
theorem Decides.bind (hx : Decides [c] x) (hf : ∀ a, x = .ok a → Decides cs (f a)) :
    Decides (c :: cs) (x >>= f) := by
  cases hxa : x with
  | error e =>
    refine ⟨fun e' he => ?_, nofun⟩
    cases he
    rcases hx.first e hxa with h | ⟨-, h⟩
    · exact .inl h
    · exact h.elim
  | ok a =>
    have hc : c.Passes := hx.passes a hxa c List.mem_cons_self
    refine ⟨fun e he => .inr ⟨hc, (hf a hxa).first e he⟩, fun b hb => ?_⟩
    exact List.forall_mem_cons.2 ⟨hc, (hf a hxa).passes b hb⟩

/-! ## steps -/

/-- goes on where a condition holds -/
def ensure (p : Prop) [Decidable p] (e : Error) : Except Error Unit :=
  if p then .ok () else .error e

section
variable {p : Prop} [Decidable p] {e : Error}

theorem ensure_of (hp : p) : ensure p e = .ok () := if_pos hp

theorem ensure_of_not (hp : ¬p) : ensure p e = .error e := if_neg hp

theorem ensure_eq_ok_iff {u : Unit} : ensure p e = .ok u ↔ p := by
  by_cases hp : p
  · rw [ensure_of hp]
    exact iff_of_true rfl hp
  · rw [ensure_of_not hp]
    exact iff_of_false nofun hp

end

theorem decides_ensure (p : Prop) [Decidable p] (e : Error) :
    Decides [fun e' => ¬p ∧ e' = e] (ensure p e) := by
  by_cases hp : p
  · rw [ensure_of hp]
    exact decides_step nofun fun _ _ _ h => h.1 hp
  · rw [ensure_of_not hp]
    refine decides_step (fun e' he => ?_) nofun
    cases he
    exact ⟨hp, rfl⟩

/-- goes on with a value where there is one -/
def demand (o : Option α) (e : Error) : Except Error α :=
  match o with
  | some a => .ok a
  | none => .error e

theorem demand_eq_ok_iff {o : Option α} {e : Error} {a : α} : demand o e = .ok a ↔ o = some a := by
  cases o <;> simp [demand]

theorem decides_demand (o : Option α) (e : Error) :
    Decides [fun e' => (∀ a, o ≠ some a) ∧ e' = e] (demand o e) := by
  cases o with
  | some a => exact decides_step nofun fun _ _ _ h => h.1 a rfl
  | none =>
    refine decides_step (fun e' he => ?_) nofun
    cases he
    exact ⟨fun _ => nofun, rfl⟩

end Check

end HeaderMiner
