import HeaderMiner.Header
/-!
# Headers that differ in time and extra nonce at most

A written header has two windows that mining moves: the time in bytes 4 to 9 and the extra nonce in
bytes 128 to 151.  Two headers agree if they are written alike everywhere else, that is, if the
three parts around the windows are the same (`agrees_iff`).  Moving on to fresh search space writes
into the windows alone (`agrees_of_advance`).
-/

namespace HeaderMiner.Header

/-- whether two headers are written alike but for the time and the extra nonce -/
def Agrees (a b : Header) : Prop :=
  ∀ i, (i < 4 ∨ 10 ≤ i ∧ i < 128 ∨ 152 ≤ i) → a.toBytes[i]? = b.toBytes[i]?

/-! ## the three parts around the windows -/

/-- the bytes before the time -/
def front (h : Header) : List UInt8 := leBytes 4 h.nonce.toNat

/-- the bytes between the time and the extra nonce -/
def middle (h : Header) : List UInt8 :=
  [0, 0] ++ h.padding.toList ++ h.prevBlock.toList ++ h.treeRoot.toList ++ h.maskHash.toList

/-- the bytes behind the extra nonce -/
def rear (h : Header) : List UInt8 :=
  h.reservedRoot.toList ++ h.witnessRoot.toList ++ h.merkleRoot.toList
    ++ leBytes 4 h.version.toNat ++ leBytes 4 h.bits.toNat

@[simp] theorem length_front (h : Header) : h.front.length = 4 := length_leBytes ..

@[simp] theorem length_middle (h : Header) : h.middle.length = 118 := by
  simp [middle]

@[simp] theorem length_rear (h : Header) : h.rear.length = 104 := by
  simp [rear]

theorem toBytes_eq (h : Header) :
    h.toBytes =
      h.front ++ (leBytes 6 h.time.seconds ++ (h.middle ++ (h.extraNonce.toList ++ h.rear))) := by
  simp only [toBytes, front, middle, rear, List.append_assoc]

theorem getElem?_front (h : Header) {i : Nat} (hi : i < 4) : h.toBytes[i]? = h.front[i]? := by
  rw [toBytes_eq, List.getElem?_append_left (by rwa [length_front])]

theorem getElem?_middle (h : Header) {i : Nat} (hi : i < 118) :
    h.toBytes[10 + i]? = h.middle[i]? := by
  have h1 : 10 + i - 4 - 6 = i := by omega
  rw [toBytes_eq, List.getElem?_append_right (by rw [length_front]; omega), length_front,
    List.getElem?_append_right (by rw [length_leBytes]; omega), length_leBytes, h1,
    List.getElem?_append_left (by rwa [length_middle])]

theorem getElem?_rear (h : Header) (i : Nat) : h.toBytes[152 + i]? = h.rear[i]? := by
  have h1 : 152 + i - 4 - 6 - 118 - 24 = i := by omega
  rw [toBytes_eq, List.getElem?_append_right (by rw [length_front]; omega), length_front,
    List.getElem?_append_right (by rw [length_leBytes]; omega), length_leBytes,
    List.getElem?_append_right (by rw [length_middle]; omega), length_middle,
    List.getElem?_append_right (by rw [Octets.length_toList]; omega), Octets.length_toList, h1]

/-! ## agreement -/

variable {a b c : Header}

theorem agrees_iff : a.Agrees b ↔ a.front = b.front ∧ a.middle = b.middle ∧ a.rear = b.rear := by
  constructor
  · intro h
    refine ⟨?_, ?_, ?_⟩
    · apply List.ext_getElem?
      intro i
      by_cases hi : i < 4
      · rw [← getElem?_front a hi, ← getElem?_front b hi]
        exact h i (.inl hi)
      · rw [List.getElem?_eq_none (by rw [length_front]; omega),
          List.getElem?_eq_none (by rw [length_front]; omega)]
    · apply List.ext_getElem?
      intro i
      by_cases hi : i < 118
      · rw [← getElem?_middle a hi, ← getElem?_middle b hi]
        exact h (10 + i) (.inr (.inl (by omega)))
      · rw [List.getElem?_eq_none (by rw [length_middle]; omega),
          List.getElem?_eq_none (by rw [length_middle]; omega)]
    · apply List.ext_getElem?
      intro i
      rw [← getElem?_rear a, ← getElem?_rear b]
      exact h (152 + i) (.inr (.inr (by omega)))
  · rintro ⟨hf, hm, hr⟩ i (hi | hi | hi)
    · rw [getElem?_front a hi, getElem?_front b hi, hf]
    · obtain ⟨k, rfl⟩ := Nat.exists_eq_add_of_le hi.1
      rw [getElem?_middle a (by omega), getElem?_middle b (by omega), hm]
    · obtain ⟨k, rfl⟩ := Nat.exists_eq_add_of_le hi
      rw [getElem?_rear, getElem?_rear, hr]

instance : Decidable (a.Agrees b) := decidable_of_iff _ agrees_iff.symm

theorem Agrees.refl (a : Header) : a.Agrees a := fun _ _ => rfl

theorem Agrees.symm (h : a.Agrees b) : b.Agrees a := fun i hi => (h i hi).symm

theorem Agrees.trans (h : a.Agrees b) (k : b.Agrees c) : a.Agrees c :=
  fun i hi => (h i hi).trans (k i hi)

theorem agrees_of_advance {now : Nat} {network : Network} {moved : Advance}
    (h : a.advance now network = .ok (b, moved)) : b.Agrees a := by
  rw [agrees_iff]
  unfold advance at h
  split at h
  · unfold setTime at h
    split at h
    · cases h
      exact ⟨rfl, rfl, rfl⟩
    · cases h
  · cases h
    exact ⟨rfl, rfl, rfl⟩

end HeaderMiner.Header
