import HeaderMiner.Text.Natural
/-!
# Which texts are numbers

A text is read as a number exactly if it spells one in decimal digits, after an optional plus sign and
however many zeros, and the number is below the bound (`natural_eq_ok_iff`).  Digits are added from
the left, so a number that has reached the bound stays there.
-/

namespace HeaderMiner.Text

/-- decimal digits, after an optional plus sign, and the number that they spell -/
def IsDecimal (cs : List Char) (n : Nat) : Prop :=
  ∃ ds, (cs = ds ∨ cs = '+' :: ds) ∧ ds ≠ [] ∧ (∀ c ∈ ds, c.isDigit = true) ∧
    Nat.ofDigitChars 10 ds 0 = n

variable {bound n m : Nat} {cs : List Char}

theorem digit?_of_isDigit {c : Char} (h : c.isDigit = true) : digit? c = some (c.toNat - 48) := by
  rw [Char.isDigit, Bool.and_eq_true, decide_eq_true_eq, decide_eq_true_eq] at h
  exact if_pos h

theorem digit?_of_not_isDigit {c : Char} (h : ¬ c.isDigit = true) : digit? c = none := by
  rw [Char.isDigit, Bool.and_eq_true, decide_eq_true_eq, decide_eq_true_eq] at h
  exact if_neg h

theorem le_ofDigitChars (cs : List Char) (n : Nat) : n ≤ Nat.ofDigitChars 10 cs n := by
  induction cs generalizing n with
  | nil => exact Nat.le_refl n
  | cons c cs ih =>
    rw [Nat.ofDigitChars_cons]
    refine Nat.le_trans ?_ (ih _)
    omega

theorem naturalFrom_eq_ok_iff (hn : n < bound) :
    naturalFrom bound n cs = .ok m ↔
      (∀ c ∈ cs, c.isDigit = true) ∧ Nat.ofDigitChars 10 cs n = m ∧ m < bound := by
  induction cs generalizing n with
  | nil =>
    constructor
    · rintro ⟨⟩
      exact ⟨nofun, rfl, hn⟩
    · rintro ⟨_, rfl, _⟩
      rfl
  | cons c cs ih =>
    rw [naturalFrom, List.forall_mem_cons]
    by_cases hc : c.isDigit = true
    · have hnext : Nat.ofDigitChars 10 (c :: cs) n =
          Nat.ofDigitChars 10 cs (n * 10 + (c.toNat - 48)) := by
        rw [Nat.ofDigitChars_cons, Nat.mul_comm]
        rfl
      rw [digit?_of_isDigit hc, hnext]
      dsimp only
      split
      · next hlt => rw [ih hlt, and_iff_right hc]
      · next hge =>
        refine iff_of_false nofun ?_
        rintro ⟨_, rfl, hm⟩
        have hle := le_ofDigitChars cs (n * 10 + (c.toNat - 48))
        omega
    · rw [digit?_of_not_isDigit hc]
      exact iff_of_false nofun fun h => hc h.1.1

theorem isDecimal_plus_iff (hne : cs ≠ []) :
    IsDecimal ('+' :: cs) n ↔ (∀ c ∈ cs, c.isDigit = true) ∧ Nat.ofDigitChars 10 cs 0 = n := by
  constructor
  · rintro ⟨ds, rfl | he, _, hds, hn⟩
    · exact absurd (hds '+' List.mem_cons_self) (by decide)
    · obtain rfl : cs = ds := List.tail_eq_of_cons_eq he
      exact ⟨hds, hn⟩
  · rintro ⟨hcs, hn⟩
    exact ⟨cs, .inr rfl, hne, hcs, hn⟩

theorem isDecimal_cons_iff {c : Char} (hc : c ≠ '+') :
    IsDecimal (c :: cs) n ↔
      (∀ d ∈ c :: cs, d.isDigit = true) ∧ Nat.ofDigitChars 10 (c :: cs) 0 = n := by
  constructor
  · rintro ⟨ds, rfl | he, _, hds, hn⟩
    · exact ⟨hds, hn⟩
    · exact absurd (List.head_eq_of_cons_eq he) hc
  · rintro ⟨hcs, hn⟩
    exact ⟨c :: cs, .inl rfl, List.cons_ne_nil c cs, hcs, hn⟩

theorem natural_eq_ok_iff (hb : 0 < bound) : natural bound cs = .ok n ↔ IsDecimal cs n ∧ n < bound := by
  -- the cases of the reader: nothing, a sign alone, a sign and more, and a text without a sign
  unfold natural
  split
  · refine iff_of_false nofun ?_
    rintro ⟨⟨ds, rfl | he, hne, _⟩, _⟩
    · exact hne rfl
    · cases he
  · refine iff_of_false nofun ?_
    rintro ⟨⟨ds, rfl | he, hne, hds, _⟩, _⟩
    · exact absurd (hds '+' List.mem_cons_self) (by decide)
    · exact hne (List.tail_eq_of_cons_eq he).symm
  · next cs hne =>
    rw [naturalFrom_eq_ok_iff hb, isDecimal_plus_iff (by rintro rfl; exact hne rfl), and_assoc]
  · next hnil _ hplus =>
    cases cs with
    | nil => exact absurd rfl hnil
    | cons c cs =>
      rw [naturalFrom_eq_ok_iff hb, isDecimal_cons_iff fun hc => hplus cs (hc ▸ rfl), and_assoc]

theorem isDecimal_toString (n : Nat) : IsDecimal (toString n).toList n := by
  refine ⟨_, .inl Nat.toList_repr, Nat.toDigits_ne_nil, fun c hc => ?_, ?_⟩
  · exact Nat.isDigit_of_mem_toDigits (by decide) (by decide) hc
  · exact Nat.ofDigitChars_toDigits (by decide) (by decide)

end HeaderMiner.Text
