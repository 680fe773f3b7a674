import HeaderMiner.Json.Expected
import HeaderMiner.Proofs.Json.Values
/-!
# Members of expected types

What is asked of a member is decided by the value of its key alone.  The types are checked in the
order of the members, whatever keys are there besides: other members can be left out
(`checkStrings_filter`, `lookup_filter`).
-/

namespace HeaderMiner.Json

variable {key s : String} {keys : List String} {v x : Json} {members : List (String × Json)}

theorem expectString_eq_ok_iff : v.expectString = .ok s ↔ v = .string s := by
  cases v <;> simp [expectString]

theorem isNull_eq_false_iff : v.isNull = false ↔ v ≠ .null := by
  cases v <;> simp [isNull]

theorem stringAt_eq_ok_iff :
    stringAt members key = .ok s ↔ lookup key members = some (.string s) := by
  unfold stringAt
  cases lookup key members with
  | none => simp
  | some v => simp [expectString_eq_ok_iff]

theorem valueAt_eq_ok_iff : valueAt members key = .ok v ↔ lookup key members = some v := by
  unfold valueAt
  cases lookup key members <;> simp

theorem WellFormed.get? (hv : v.WellFormed) (h : v.get? key = some x) : x.WellFormed := by
  cases hv with
  | object _ hall => exact hall _ (mem_of_lookup h)
  | _ => cases h

/-- whether a value is an integer of 64 bits with a sign -/
def IsInteger (v : Json) (n : Int) : Prop :=
  (0 ≤ n ∧ n < 2 ^ 63 ∧ v = .natural n.toNat) ∨ (-2 ^ 63 ≤ n ∧ n < 0 ∧ v = .negative n)

theorem asInt?_eq_some_iff {n : Int} (hv : v.WellFormed) : v.asInt? = some n ↔ v.IsInteger n := by
  unfold IsInteger
  cases hv with
  | @natural k hk =>
    show (if k < 2 ^ 63 then some (Int.ofNat k) else none) = some n ↔ _
    simp only [natural.injEq, reduceCtorEq, and_false, or_false]
    split
    · simp only [Option.some.injEq, Int.ofNat_eq_natCast]
      omega
    · simp only [reduceCtorEq, false_iff]
      omega
  | @negative k hge hneg =>
    show some k = some n ↔ _
    simp only [Option.some.injEq, negative.injEq, reduceCtorEq, and_false, false_or]
    omega
  | _ => simp [asInt?]

theorem checkStrings_cons {m : String × Json} {rest : List (String × Json)} :
    checkStrings keys (m :: rest) =
      if m.1 ∈ keys then m.2.expectString.bind fun _ => checkStrings keys rest
      else checkStrings keys rest := by
  rw [checkStrings]
  dsimp only
  by_cases hk : m.1 ∈ keys
  · rw [if_pos (List.contains_iff_mem.2 hk), if_pos hk]
    cases m.2.expectString <;> rfl
  · rw [if_neg (mt List.contains_iff_mem.1 hk), if_neg hk]

theorem checkStrings_eq_ok (h : ∀ m ∈ members, m.1 ∈ keys → ∃ s, m.2 = .string s) :
    checkStrings keys members = .ok () := by
  induction members with
  | nil => rfl
  | cons m rest ih =>
    rw [List.forall_mem_cons] at h
    rw [checkStrings_cons]
    split
    · next hk =>
      obtain ⟨s, hs⟩ := h.1 hk
      rw [hs]
      exact ih h.2
    · exact ih h.2

theorem checkStrings_filter {p : String → Bool} (hp : ∀ k ∈ keys, p k = true) :
    checkStrings keys (members.filter fun m => p m.1) = checkStrings keys members := by
  induction members with
  | nil => rfl
  | cons m rest ih =>
    rw [checkStrings_cons, List.filter_cons]
    by_cases hm : p m.1 = true
    · rw [if_pos hm, checkStrings_cons, ih]
    · have hk : m.1 ∉ keys := fun hk => hm (hp _ hk)
      rw [if_neg hm, if_neg hk, ih]

theorem lookup_filter {p : String → Bool} (hp : p key = true) :
    lookup key (members.filter fun m => p m.1) = lookup key members := by
  induction members with
  | nil => rfl
  | cons m rest ih =>
    obtain ⟨k, x⟩ := m
    rw [lookup, List.filter_cons]
    by_cases hm : p k = true
    · rw [if_pos hm, lookup, ih]
    · have hk : k ≠ key := fun hk => hm (hk ▸ hp)
      rw [if_neg hm, if_neg hk, ih]

end HeaderMiner.Json
