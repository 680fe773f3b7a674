import HeaderMiner.Text.Pieces
/-!
# Digits read back

The digits of a number in a base, in either case and with zeros in front or none, spell the number
again.
-/

namespace HeaderMiner.Text

variable {b n : Nat} {xs ys : List Char}

def addDigit (b n : Nat) (c : Char) : Option Nat := do
  let d ← hexValue? c
  if d < b then some (n * b + d) else none

theorem digits?_eq (cs : List Char) : digits? b cs = cs.foldlM (addDigit b) 0 := rfl

theorem digits?_toDigits {f : Char → Char} (hb : 1 < b)
    (hf : ∀ d < b, hexValue? (f (Nat.digitChar d)) = some d) (n : Nat) :
    digits? b ((Nat.toDigits b n).map f) = some n := by
  have hdigit {m d : Nat} (hd : d < b) : addDigit b m (f (Nat.digitChar d)) = some (m * b + d) := by
    rw [addDigit, hf d hd]
    exact if_pos hd
  induction n using Nat.strongRecOn with
  | ind n ih =>
    by_cases hn : n < b
    · rw [Nat.toDigits_of_lt_base hn, digits?_eq]
      show (addDigit b 0 (f (Nat.digitChar n))).bind some = some n
      rw [hdigit hn, Nat.zero_mul, Nat.zero_add]
      rfl
    · have hle : b ≤ n := Nat.not_lt.1 hn
      have hdiv := ih (n / b) (Nat.div_lt_self (by omega) hb)
      rw [digits?_eq] at hdiv
      rw [Nat.toDigits_of_base_le hb hle, List.map_append, digits?_eq, List.foldlM_append, hdiv]
      show (addDigit b (n / b) (f (Nat.digitChar (n % b)))).bind some = some n
      rw [hdigit (Nat.mod_lt _ (by omega)), Nat.mul_comm, Nat.div_add_mod]
      rfl

theorem exists_of_mem_toDigits (hb : 1 < b) {c : Char} (hc : c ∈ Nat.toDigits b n) :
    ∃ d, d < b ∧ c = Nat.digitChar d := by
  induction n using Nat.strongRecOn with
  | ind n ih =>
    by_cases hn : n < b
    · rw [Nat.toDigits_of_lt_base hn, List.mem_singleton] at hc
      exact ⟨n, hn, hc⟩
    · rw [Nat.toDigits_of_base_le hb (Nat.not_lt.1 hn), List.mem_append, List.mem_singleton] at hc
      rcases hc with hc | hc
      · exact ih (n / b) (Nat.div_lt_self (by omega) hb) hc
      · exact ⟨n % b, Nat.mod_lt _ (by omega), hc⟩

theorem head_toDigits {n : Nat} (h : (Nat.toDigits 10 n).head? = some '0') : n = 0 := by
  induction n using Nat.strongRecOn with
  | ind n ih =>
    by_cases hn : n < 10
    · rw [Nat.toDigits_of_lt_base hn, List.head?_cons] at h
      have hdigit : ∀ d < 10, Nat.digitChar d = '0' → d = 0 := by decide
      exact hdigit n hn (Option.some.inj h)
    · have hdiv : n / 10 = 0 := by
        apply ih (n / 10) (by omega)
        rwa [Nat.toDigits_of_base_le (by decide) (Nat.not_lt.1 hn), List.head?_append,
          List.head?_eq_some_head Nat.toDigits_ne_nil, Option.some_or,
          ← List.head?_eq_some_head Nat.toDigits_ne_nil] at h
      omega

theorem digits?_zeros (hb : 0 < b) (k : Nat) :
    digits? b (List.replicate k '0' ++ ys) = digits? b ys := by
  induction k with
  | zero => rfl
  | succ k ih =>
    have h0 : addDigit b 0 '0' = some 0 := by
      show (if 0 < b then some (0 * b + 0) else none) = some 0
      rw [if_pos hb, Nat.zero_mul]
    rw [← ih, List.replicate_succ, List.cons_append, digits?_eq, List.foldlM_cons, h0]
    rfl

end HeaderMiner.Text
