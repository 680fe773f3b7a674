import Mathlib.Algebra.Order.Floor.Semifield
import Mathlib.Data.Rat.Floor
import HeaderMiner.Proofs.Target.Compaction
import HeaderMiner.Target.Placing
/-!
# What compact bits are read as

The number of compact bits decides how they are read: as the 32 bytes that spell it
(`Target.ofBits_of_lt`), or as an overflow if it needs more (`Target.ofBits_of_le`).  Placing the
mantissa byte by byte comes to the same and leaves no range on the way (`Placing.read?_eq`): at every
turn the bytes written and what is left of the mantissa add up to the number
(`Placing.fill?_replicate`), so something is left exactly if the number does not fit.
-/

namespace HeaderMiner

open HeaderMiner.Compact

/-! ## the number of compact bits -/

namespace Compact

/-- the number is the mantissa scaled by its exponent, rounded down -/
theorem value_eq_floor (b : UInt32) :
    value b = ⌊(mantissa b : ℚ) * 256 ^ ((exponent b : ℤ) - 3)⌋₊ := by
  have hscale : (mantissa b : ℚ) * 256 ^ ((exponent b : ℤ) - 3) =
      ((mantissa b * 256 ^ exponent b : ℕ) : ℚ) / ((256 ^ 3 : ℕ) : ℚ) := by
    rw [zpow_sub₀ (by norm_num), zpow_natCast, mul_div_assoc']
    push_cast
    rfl
  rw [hscale, Nat.floor_div_eq_div]
  rfl

/-- a number that needs more than 32 bytes has bytes behind the mantissa -/
theorem le_value_iff {b : UInt32} :
    256 ^ 32 ≤ value b ↔ 3 < exponent b ∧ 2 ^ 256 ≤ mantissa b * 256 ^ (exponent b - 3) := by
  have hpow : (256 : ℕ) ^ 32 = 2 ^ 256 := by norm_num
  rw [hpow]
  rcases Nat.lt_or_ge 3 (exponent b) with he | he
  · rw [value_eq he.le]
    exact ⟨fun h => ⟨he, h⟩, And.right⟩
  · have hle : value b ≤ mantissa b := by
      refine Nat.div_le_of_le_mul ?_
      rw [Nat.mul_comm]
      exact Nat.mul_le_mul_right _ (Nat.pow_le_pow_right (by decide) he)
    have hlt : mantissa b < 2 ^ 256 := (mantissa_lt b).trans (by norm_num)
    exact ⟨fun h => absurd (h.trans hle) hlt.not_ge, fun h => absurd h.1 he.not_gt⟩

theorem isNegative_eq_testBit (b : UInt32) : isNegative b = b.toNat.testBit 23 :=
  (Nat.testBit_eq_decide_div_mod_eq ..).symm

end Compact

/-! ## reading -/

namespace Target

variable {b : UInt32}

def spelling (n : Nat) : Target := ⟨⟨beBytes 32 n, length_beBytes ..⟩⟩

theorem value_spelling {n : Nat} (h : n < 256 ^ 32) : (spelling n).value = n :=
  (beNat_beBytes ..).trans (Nat.mod_eq_of_lt h)

theorem length_placed_le_iff {k : Nat} :
    (placed (exponent b) (mantissa b)).length ≤ k ↔ Compact.value b < 256 ^ k := by
  have hm : mantissa b < 256 ^ 3 := (mantissa_lt b).trans (by decide)
  have hp : beNat (placed (exponent b) (mantissa b)) = Compact.value b := beNat_placed hm
  rw [placed, beNat_significant] at hp
  rw [placed, length_significant_le_iff, hp]

theorem ofBits_of_isNegative (hn : isNegative b = true) : ofBits b = .error .negativeTarget := by
  have h0 : b ≠ 0 := by
    rintro rfl
    exact absurd hn (by decide)
  unfold ofBits
  rw [if_neg h0, if_pos hn]

theorem ofBits_of_lt (h0 : b ≠ 0) (hn : isNegative b = false) (h : Compact.value b < 256 ^ 32) :
    ofBits b = .ok (spelling (Compact.value b)) :=
  ofBits_eq_ok_iff.2 ⟨h0, hn, (value_spelling h).symm⟩

theorem ofBits_of_le (h0 : b ≠ 0) (hn : isNegative b = false) (h : 256 ^ 32 ≤ Compact.value b) :
    ofBits b = .error .targetOverflow := by
  unfold ofBits
  dsimp only
  rw [if_neg h0, hn, if_neg Bool.false_ne_true, dif_neg (mt length_placed_le_iff.1 h.not_gt)]

end Target

/-! ## placing the mantissa -/

namespace Placing

open Target

/-- the lowest byte of a word, and the word without it -/
theorem toNat_shiftRight_eight (word : UInt32) :
    word.toUInt8.toNat + (word >>> 8).toNat * 256 = word.toNat := by
  have h1 : word.toUInt8.toNat = word.toNat % 256 := rfl
  have h2 : (word >>> 8).toNat = word.toNat / 256 := by
    rw [UInt32.toNat_shiftRight, Nat.shiftRight_eq_div_pow]
    rfl
  rw [h1, h2]
  omega

theorem fill?_of_done {word : UInt32} {i : Int} (buffer : Octets 32) (h : word = 0 ∨ i < 0) :
    fill? word i buffer = some (word, buffer) := by
  rw [fill?, dif_neg]
  rintro ⟨h0, hi⟩
  rcases h with h | h
  · exact h0 h
  · omega

/-- the byte at the last of the free places in front -/
theorem write?_replicate {room : Nat} {tail : List UInt8} {buffer : Octets 32} (b : UInt8)
    (hb : buffer.toList = List.replicate (room + 1) 0 ++ tail) :
    ∃ next : Octets 32, write? buffer room b = some next ∧
      next.toList = List.replicate room 0 ++ b :: tail := by
  have hlen := congrArg List.length hb
  rw [buffer.length_toList, List.length_append, List.length_replicate] at hlen
  have hset : buffer.toList.set room b = List.replicate room 0 ++ b :: tail := by
    rw [hb, List.replicate_succ', List.append_assoc, List.set_append_right _ _ (by simp)]
    simp
  refine ⟨_, if_pos (by omega), ?_⟩
  rw [← hset]
  rfl

/-- with free places in front, what is written and what is left of the word add up -/
theorem fill?_replicate (room : Nat) (word : UInt32) {tail : List UInt8} {buffer : Octets 32}
    (hb : buffer.toList = List.replicate room 0 ++ tail) :
    ∃ left filled, fill? word ((room : Int) - 1) buffer = some (left, filled) ∧
      beNat filled.toList + left.toNat * 256 ^ 32 =
        beNat tail + word.toNat * 256 ^ tail.length := by
  induction room generalizing word tail buffer with
  | zero =>
    have hl : tail.length = 32 := by rw [← buffer.length_toList, hb]; simp
    refine ⟨word, buffer, fill?_of_done buffer (.inr (by omega)), ?_⟩
    rw [hb, hl]
    rfl
  | succ room ih =>
    have hi : ((room + 1 : Nat) : Int) - 1 = room := by omega
    rw [hi]
    by_cases h0 : word = 0
    · refine ⟨word, buffer, fill?_of_done buffer (.inl h0), ?_⟩
      rw [hb, beNat_append, beNat_replicate_zero, h0]
      simp
    · obtain ⟨next, hw, hn⟩ := write?_replicate word.toUInt8 hb
      obtain ⟨left, filled, hf, hsum⟩ := ih (word >>> 8) hn
      refine ⟨left, filled, ?_, ?_⟩
      · have hs : shiftRight? word 8 = some (word >>> 8) := rfl
        rw [fill?, dif_pos ⟨h0, by omega⟩, hw, hs]
        exact hf
      · rw [hsum, beNat_cons, List.length_cons, Nat.pow_succ, ← toNat_shiftRight_eight word]
        ring

/-- in an empty buffer something of the word is left exactly if its number does not fit -/
theorem fill?_replicate_zero (word : UInt32) (behind : Nat) :
    ∃ left filled, fill? word (31 - Int.ofNat behind) (.replicate 32 0) = some (left, filled) ∧
      (left = 0 ↔ word.toNat * 256 ^ behind < 256 ^ 32) ∧
      (left = 0 → beNat filled.toList = word.toNat * 256 ^ behind) := by
  rcases Nat.lt_or_ge 32 behind with hb | hb
  · refine ⟨word, .replicate 32 0, fill?_of_done _ (.inr ?_), ?_, ?_⟩
    · show (31 : Int) - behind < 0
      omega
    · constructor
      · rintro rfl
        simp
      · intro hlt
        by_contra h0
        have hpos : 0 < word.toNat := Nat.pos_of_ne_zero fun h => h0 (UInt32.toNat_inj.1 h)
        have hpow : 256 ^ 32 ≤ 256 ^ behind := Nat.pow_le_pow_right (by decide) hb.le
        exact hlt.not_ge (hpow.trans (Nat.le_mul_of_pos_left _ hpos))
    · rintro rfl
      rw [UInt32.toNat_zero, Nat.zero_mul]
      exact beNat_replicate_zero 32
  · have hzeros : (Octets.replicate 32 0).toList =
        List.replicate (32 - behind) 0 ++ List.replicate behind 0 := by
      rw [List.replicate_append_replicate, Nat.sub_add_cancel hb]
      rfl
    obtain ⟨left, filled, hf, hsum⟩ := fill?_replicate (32 - behind) word hzeros
    have hi : ((32 - behind : Nat) : Int) - 1 = 31 - Int.ofNat behind := by
      show ((32 - behind : Nat) : Int) - 1 = 31 - (behind : Int)
      omega
    rw [beNat_replicate_zero, Nat.zero_add, List.length_replicate] at hsum
    have hlt : beNat filled.toList < 256 ^ 32 := value_lt ⟨filled⟩
    have hleft : left = 0 ↔ left.toNat = 0 := UInt32.toNat_inj.symm
    refine ⟨left, filled, hi ▸ hf, ?_, ?_⟩
    · rw [hleft, ← hsum]
      omega
    · intro h0
      rw [hleft.1 h0] at hsum
      omega

/-- no range is left while a mantissa is aligned, and what is cut is cut of the number -/
theorem align?_eq (e m : UInt32) :
    ∃ word behind, align? e m = some (word, Int.ofNat behind) ∧
      word.toNat * 256 ^ behind = m.toNat * 256 ^ e.toNat / 256 ^ 3 := by
  unfold align?
  by_cases he : e ≤ 3
  · have hle : e.toNat ≤ 3 := UInt32.le_iff_toNat_le.1 he
    obtain ⟨d, hd⟩ := Nat.exists_eq_add_of_le hle
    have hcut : (3 - e).toNat = d := by
      rw [UInt32.toNat_sub_of_le _ _ he]
      show 3 - e.toNat = d
      omega
    have hamount : (8 * (3 - e)).toNat = 8 * d := by
      rw [UInt32.toNat_mul, hcut]
      exact Nat.mod_eq_of_lt (by show 8 * d < 2 ^ 32; omega)
    have hlt : 8 * (3 - e) < 32 := by
      rw [UInt32.lt_iff_toNat_lt, hamount]
      show 8 * d < 32
      omega
    refine ⟨m >>> (8 * (3 - e)), 0, ?_, ?_⟩
    · rw [if_pos he, sub?, if_pos he]
      show (shiftRight? m (8 * (3 - e))).bind _ = _
      rw [shiftRight?, if_pos hlt]
      rfl
    · have hpow : (2 : Nat) ^ (8 * d) = 256 ^ d := Nat.pow_mul 2 8 d
      rw [UInt32.toNat_shiftRight, hamount, Nat.mod_eq_of_lt (by omega),
        Nat.shiftRight_eq_div_pow, hpow, Nat.pow_zero, Nat.mul_one, hd, Nat.pow_add,
        Nat.mul_comm m.toNat, Nat.mul_div_mul_left _ _ (Nat.pow_pos (by decide))]
  · have hge : 3 ≤ e := by
      rw [UInt32.le_iff_toNat_le] at he ⊢
      omega
    obtain ⟨d, hd⟩ := Nat.exists_eq_add_of_le (UInt32.le_iff_toNat_le.1 hge)
    have h3 : (3 : UInt32).toNat = 3 := rfl
    have hbehind : (e - 3).toNat = d := by
      rw [UInt32.toNat_sub_of_le _ _ hge, hd, Nat.add_sub_cancel_left]
    refine ⟨m, d, ?_, ?_⟩
    · rw [if_neg he, sub?, if_pos hge, ← hbehind]
      rfl
    · rw [hd, h3, Nat.pow_add, Nat.mul_left_comm, Nat.mul_div_cancel_left _ (by decide)]

/-! ## the parts of compact bits, as words -/

theorem toNat_exponent (b : UInt32) : (b >>> 24).toNat = exponent b := by
  rw [UInt32.toNat_shiftRight, Nat.shiftRight_eq_div_pow]
  rfl

theorem toNat_mantissa (b : UInt32) : (b &&& 0x7fffff).toNat = mantissa b :=
  (UInt32.toNat_and ..).trans (Nat.and_two_pow_sub_one_eq_mod b.toNat 23)

theorem sign_eq_one_iff (b : UInt32) : b >>> 23 &&& 1 = 1 ↔ isNegative b = true := by
  have hsign : (b >>> 23 &&& 1).toNat = b.toNat / 2 ^ 23 % 2 := by
    rw [UInt32.toNat_and, UInt32.toNat_shiftRight, Nat.shiftRight_eq_div_pow]
    exact Nat.and_one_is_mod _
  rw [← UInt32.toNat_inj, hsign, isNegative, decide_eq_true_iff]
  rfl

/-- placing leaves no range, and comes to what the number of the bits is read as -/
theorem read?_eq (b : UInt32) : read? b = some (ofBits b) := by
  have hshift (k : UInt32) (hk : k < 32) : shiftRight? b k = some (b >>> k) := if_pos hk
  unfold read?
  by_cases h0 : b = 0
  · subst h0
    rfl
  rw [if_neg h0, hshift 23 (by decide), hshift 24 (by decide)]
  by_cases hn : isNegative b = true
  · rw [ofBits_of_isNegative hn]
    exact if_pos ((sign_eq_one_iff b).2 hn)
  · obtain ⟨word, behind, ha, hv⟩ := align?_eq (b >>> 24) (b &&& 0x7fffff)
    obtain ⟨left, filled, hf, hleft, hfilled⟩ := fill?_replicate_zero word behind
    rw [toNat_exponent, toNat_mantissa] at hv
    rw [hv] at hleft hfilled
    have hsign : isNegative b = false := Bool.eq_false_iff.2 hn
    refine (if_neg (mt (sign_eq_one_iff b).1 hn)).trans ?_
    simp only [Option.bind_eq_bind, Option.bind_some, ha, hf]
    rcases Nat.lt_or_ge (Compact.value b) (256 ^ 32) with hlt | hle
    · have h : left = 0 := hleft.2 hlt
      have ht : (⟨filled⟩ : Target) = spelling (Compact.value b) :=
        eq_of_value ((hfilled h).trans (value_spelling hlt).symm)
      rw [ofBits_of_lt h0 hsign hlt, if_neg (not_not.2 h), ht]
      rfl
    · rw [ofBits_of_le h0 hsign hle, if_pos (mt hleft.1 hle.not_gt)]
      rfl

end Placing

namespace Target

/-- Reading compact bits is exact.  They are refused for being zero, for their sign, or because the
number of exponent and mantissa needs more than 32 bytes, and otherwise they are read as the 32 bytes
of that number rounded down; and placing the mantissa byte by byte comes to this without a shift or
an index out of its range. -/
theorem ofBits_exact (b : UInt32) :
    Placing.read? b = some (ofBits b) ∧
    (ofBits b = .error .invalidTarget ↔ b = 0) ∧
    (ofBits b = .error .negativeTarget ↔ b.toNat.testBit 23 = true) ∧
    (ofBits b = .error .targetOverflow ↔ b ≠ 0 ∧ b.toNat.testBit 23 = false ∧
      3 < exponent b ∧ 2 ^ 256 ≤ mantissa b * 256 ^ (exponent b - 3)) ∧
    ((∃ t, ofBits b = .ok t) ↔ b ≠ 0 ∧ b.toNat.testBit 23 = false ∧
      ¬(3 < exponent b ∧ 2 ^ 256 ≤ mantissa b * 256 ^ (exponent b - 3))) ∧
    (∀ t, ofBits b = .ok t →
      t.value = ⌊(mantissa b : ℚ) * 256 ^ ((exponent b : ℤ) - 3)⌋₊ ∧
      t.octets.toList = beBytes 32 ⌊(mantissa b : ℚ) * 256 ^ ((exponent b : ℤ) - 3)⌋₊) ∧
    (b ≠ 0 → b.toNat.testBit 23 = false → mantissa b = 0 → ofBits b = .ok ⟨.replicate 32 0⟩) := by
  refine ⟨Placing.read?_eq b, ?_⟩
  rw [← value_eq_floor, ← le_value_iff, ← isNegative_eq_testBit]
  rcases eq_or_ne b 0 with rfl | h0
  · have hb : ofBits 0 = .error .invalidTarget := rfl
    simp [hb, isNegative]
  cases hn : isNegative b with
  | true => simp [ofBits_of_isNegative hn, h0]
  | false =>
    rcases Nat.lt_or_ge (Compact.value b) (256 ^ 32) with hlt | hle
    · have hzero : mantissa b = 0 → spelling (Compact.value b) = ⟨.replicate 32 0⟩ := by
        intro hm
        rw [Compact.value, hm, Nat.zero_mul, Nat.zero_div]
        rfl
      have hbytes : (spelling (Compact.value b)).value = Compact.value b ∧
          (spelling (Compact.value b)).octets.toList = beBytes 32 (Compact.value b) :=
        ⟨value_spelling hlt, rfl⟩
      simp only [ofBits_of_lt h0 hn hlt, hlt.not_ge]
      simpa [h0] using ⟨hbytes, hzero⟩
    · have hm : mantissa b ≠ 0 := by
        intro hm
        rw [Compact.value, hm, Nat.zero_mul, Nat.zero_div] at hle
        exact absurd hle (by decide)
      simp only [ofBits_of_le h0 hn hle, hle]
      simp [h0, hm]

end Target

end HeaderMiner
