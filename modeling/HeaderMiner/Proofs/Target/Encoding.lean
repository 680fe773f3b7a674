import Mathlib.Data.Nat.Bitwise
import HeaderMiner.Proofs.Target.Decoding
/-!
# Compact bits stand in the order of their targets

At the exponent that is written the mantissa is the number cut to an integer.  A larger number never
leaves a smaller exponent (`Compact.Leads.exponent_le_of_le`), and at the same exponent it never
leaves a smaller mantissa; so the bits stand in the order of the numbers (`Compact.Leads.le_of_le`),
whatever exponent they change to on the way.  Shifting the bytes of a target into a word comes to the
same bits (`Placing.pack?_eq`).
-/

namespace HeaderMiner

open HeaderMiner.Compact

namespace Compact

variable {a b : UInt32} {m n : Nat}

theorem toNat_eq (h : isNegative b = false) : b.toNat = exponent b * 2 ^ 24 + mantissa b := by
  simp only [isNegative, decide_eq_false_iff_not] at h
  simp only [exponent, mantissa]
  omega

namespace Leads

theorem le_of_le (h : Leads a m) (hb : Leads b n) (hmn : m ≤ n) : a ≤ b := by
  rw [UInt32.le_iff_toNat_le, toNat_eq h.isNegative_eq, toNat_eq hb.isNegative_eq]
  have hm := mantissa_lt a
  rcases Nat.lt_or_eq_of_le (h.exponent_le_of_le hb hmn) with he | he
  · omega
  · have hle : mantissa a ≤ mantissa b := by
      rw [h.mantissa_eq, hb.mantissa_eq, he]
      exact Nat.div_le_div_right (Nat.mul_le_mul_right _ hmn)
    omega

/-- a number of 32 bytes has an exponent of 33 at most, where its first byte reaches the sign bit -/
theorem exponent_le (h : Leads b n) (hn : n < 256 ^ 32) : exponent b ≤ 33 := by
  refine Nat.not_lt.1 fun he => ?_
  have hle : 2 ^ 15 * 256 ^ exponent b ≤ n * 256 ^ 3 := by
    apply Nat.le_trans (Nat.mul_le_mul_right _ h.le_mantissa)
    rw [h.mantissa_eq]
    exact Nat.div_mul_le_self ..
  have hpow : 256 ^ 34 ≤ 256 ^ exponent b := Nat.pow_le_pow_right (by decide) he
  omega

end Leads

end Compact

/-! ## packing the mantissa -/

namespace Placing

open Target

theorem shiftLeft?_eq {w k : UInt32} {n : Nat} (hk : k.toNat = n) (hn : n < 32)
    (hw : w.toNat * 2 ^ n < 2 ^ 32) :
    ∃ r, shiftLeft? w k = some r ∧ r.toNat = w.toNat * 2 ^ n := by
  have h32 : k < 32 := by
    rw [UInt32.lt_iff_toNat_lt, hk]
    exact hn
  refine ⟨w <<< k, if_pos h32, ?_⟩
  rw [UInt32.toNat_shiftLeft, hk, Nat.mod_eq_of_lt hn, Nat.shiftLeft_eq, Nat.mod_eq_of_lt hw]

theorem toNat_or_of_lt {r w : UInt32} {n k : Nat} (hr : r.toNat = n * 2 ^ k)
    (hw : w.toNat < 2 ^ k) : (r ||| w).toNat = n * 2 ^ k + w.toNat := by
  rw [UInt32.toNat_or, hr, ← Nat.shiftLeft_eq, Nat.shiftLeft_add_eq_or_of_lt hw]

theorem foldlM_gather (bytes : List UInt8) (w : UInt32)
    (h : w.toNat * 256 ^ bytes.length + beNat bytes < 2 ^ 32) :
    ∃ r, bytes.foldlM (fun word b => do return (← shiftLeft? word 8) ||| b.toUInt32) w = some r ∧
      r.toNat = w.toNat * 256 ^ bytes.length + beNat bytes := by
  induction bytes generalizing w with
  | nil => exact ⟨w, rfl, (Nat.mul_one _).symm⟩
  | cons b bs ih =>
    have hsum : (w.toNat * 2 ^ 8 + b.toNat) * 256 ^ bs.length + beNat bs =
        w.toNat * 256 ^ (b :: bs).length + beNat (b :: bs) := by
      rw [beNat_cons, List.length_cons, Nat.pow_succ]
      ring
    rw [← hsum] at h ⊢
    have hle : w.toNat * 2 ^ 8 + b.toNat < 2 ^ 32 :=
      Nat.lt_of_le_of_lt (Nat.le_mul_of_pos_right _ (Nat.pow_pos (by decide)))
        (Nat.lt_of_le_of_lt (Nat.le_add_right ..) h)
    obtain ⟨r, hr, hrn⟩ := shiftLeft?_eq (k := 8) (n := 8) rfl (by decide)
      (Nat.lt_of_le_of_lt (Nat.le_add_right ..) hle)
    have hn : (r ||| b.toUInt32).toNat = w.toNat * 2 ^ 8 + b.toNat :=
      toNat_or_of_lt hrn b.toNat_lt
    rw [← hn] at h ⊢
    obtain ⟨v, hv, hvn⟩ := ih _ h
    refine ⟨v, ?_, hvn⟩
    rw [List.foldlM_cons, hr]
    exact hv

theorem gather?_eq (bytes : List UInt8) (h : bytes.length ≤ 3) :
    ∃ w, gather? bytes = some w ∧ w.toNat = beNat bytes := by
  have hlt : beNat bytes < 2 ^ 32 :=
    Nat.lt_of_lt_of_le (beNat_lt bytes)
      (Nat.le_trans (Nat.pow_le_pow_right (by decide) h) (by decide))
  have h0 : (0 : UInt32).toNat * 256 ^ bytes.length + beNat bytes = beNat bytes := by simp
  obtain ⟨w, hw, hn⟩ := foldlM_gather bytes 0 (by rwa [h0])
  exact ⟨w, hw, hn.trans h0⟩

theorem and_sign_ne_zero_iff {w : UInt32} (h : w.toNat < 2 ^ 24) :
    w &&& 0x800000 ≠ 0 ↔ 2 ^ 23 ≤ w.toNat := by
  have hand : (w &&& 0x800000).toNat = (w.toNat.testBit 23).toNat * 2 ^ 23 :=
    (UInt32.toNat_and ..).trans (Nat.and_two_pow w.toNat 23)
  have hbit : w.toNat.testBit 23 = decide (2 ^ 23 ≤ w.toNat) := by
    rw [Nat.testBit_eq_decide_div_mod_eq, decide_eq_decide]
    omega
  rw [ne_eq, ← UInt32.toNat_inj, hand, hbit]
  simp

theorem join?_eq {e w : UInt32} (he : e.toNat ≤ 32) (hw : w.toNat < 2 ^ 24) :
    join? e w = some (if w.toNat < 2 ^ 23 then assemble e.toNat w.toNat
      else assemble (e.toNat + 1) (w.toNat / 256)) := by
  have hjoin {e w : UInt32} (he : e.toNat ≤ 33) (hw : w.toNat < 2 ^ 24) :
      (do return (← shiftLeft? e 24) ||| w : Option UInt32) = some (assemble e.toNat w.toNat) := by
    obtain ⟨r, hr, hn⟩ := shiftLeft?_eq (w := e) (k := 24) (n := 24) rfl (by decide)
      (by omega)
    rw [hr]
    apply congrArg some
    rw [← UInt32.toNat_inj, toNat_or_of_lt hn hw, assemble, UInt32.toNat_ofNat']
    exact (Nat.mod_eq_of_lt (by omega)).symm
  unfold join?
  by_cases hs : w.toNat < 2 ^ 23
  · rw [if_neg (mt (and_sign_ne_zero_iff hw).1 (Nat.not_le.2 hs)), if_pos hs]
    exact hjoin (by omega) hw
  · have he1 : (e + 1).toNat = e.toNat + 1 := by
      rw [UInt32.toNat_add]
      exact Nat.mod_eq_of_lt (by show e.toNat + 1 < 2 ^ 32; omega)
    have hdiv : (w >>> 8).toNat = w.toNat / 256 := by
      rw [UInt32.toNat_shiftRight, Nat.shiftRight_eq_div_pow]
      rfl
    have hright : shiftRight? w 8 = some (w >>> 8) := rfl
    rw [if_pos ((and_sign_ne_zero_iff hw).2 (Nat.not_lt.1 hs)), if_neg hs, hright, ← he1, ← hdiv,
      Option.bind_eq_bind, Option.bind_some]
    exact hjoin (by omega) (by omega)

/-- the bytes from the first that is not zero on, by its index -/
theorem drop_findIdx? {bs : List UInt8} {i : Nat} (h : bs.findIdx? (· != 0) = some i) :
    i < bs.length ∧ significant bs = bs.drop i := by
  obtain ⟨hi, he⟩ := List.findIdx?_eq_some_iff_findIdx_eq.1 h
  refine ⟨hi, ?_⟩
  rw [significant, List.dropWhile_eq_drop_findIdx_not, ← he]
  rfl

/-- three bytes of a mantissa, of which the last are missing where the number is shorter -/
theorem raise?_eq {digits : List UInt8} {w e : UInt32} (hpos : digits ≠ [])
    (he : e.toNat = digits.length) (hw : w.toNat = beNat (digits.take 3)) :
    ∃ r, raise? e w = some r ∧ r.toNat = beNat ((digits ++ [0, 0, 0]).take 3) := by
  have hn3 : (3 : UInt32).toNat = 3 := rfl
  have h3 : e < 3 ↔ digits.length < 3 := by rw [UInt32.lt_iff_toNat_lt, he, hn3]
  by_cases hlt : digits.length < 3
  · obtain ⟨d, hd⟩ := Nat.exists_eq_add_of_le (Nat.le_of_lt hlt)
    have hlen := List.length_pos_iff.2 hpos
    have hle : e ≤ 3 := by
      rw [UInt32.le_iff_toNat_le, he, hn3]
      exact Nat.le_of_lt hlt
    have hcut : (3 - e).toNat = d := by
      rw [UInt32.toNat_sub_of_le _ _ hle, he, hn3]
      omega
    have hamount : (8 * (3 - e)).toNat = 8 * d := by
      have hn8 : (8 : UInt32).toNat = 8 := rfl
      rw [UInt32.toNat_mul, hcut, hn8]
      exact Nat.mod_eq_of_lt (by omega)
    have hpow : (2 : Nat) ^ (8 * d) = 256 ^ d := Nat.pow_mul 2 8 d
    have hall : digits.take 3 = digits := List.take_of_length_le (Nat.le_of_lt hlt)
    have hzeros : (digits ++ [0, 0, 0]).take 3 = digits ++ List.replicate d 0 := by
      have hd2 : d ≤ 3 := by omega
      have hz : ([0, 0, 0] : List UInt8) = List.replicate 3 0 := rfl
      rw [List.take_append, hall, hz, List.take_replicate, hd, Nat.add_sub_cancel_left,
        Nat.min_eq_left (by omega)]
    have hsum : beNat ((digits ++ [0, 0, 0]).take 3) = w.toNat * 2 ^ (8 * d) := by
      rw [hzeros, beNat_append, beNat_replicate_zero, List.length_replicate, hw, hall, hpow,
        Nat.add_zero]
    have hbound : beNat ((digits ++ [0, 0, 0]).take 3) < 2 ^ 32 := by
      apply Nat.lt_of_lt_of_le (beNat_lt _)
      have hl : ((digits ++ [0, 0, 0]).take 3).length = 3 := by simp
      rw [hl]
      decide
    obtain ⟨r, hr, hn⟩ := shiftLeft?_eq hamount (by omega) (hsum ▸ hbound)
    refine ⟨r, ?_, hn.trans hsum.symm⟩
    rw [raise?, if_pos (h3.2 hlt), sub?, if_pos hle]
    exact hr
  · refine ⟨w, if_neg (mt h3.1 hlt), ?_⟩
    rw [hw, List.take_append_of_le_length (Nat.not_lt.1 hlt)]

/-- packing leaves no range, and comes to what a target is written as -/
theorem pack?_eq (t : Target) : pack? t.octets = some t.toBits := by
  have hlen := t.octets.length_toList
  unfold pack?
  cases hf : t.octets.toList.findIdx? (· != 0) with
  | none =>
    have hnil : significant t.octets.toList = [] := by
      rw [significant, List.dropWhile_eq_drop_findIdx_not]
      apply List.drop_eq_nil_of_le
      exact Nat.le_of_eq (List.findIdx_eq_length.2 (List.findIdx?_eq_none_iff.1 hf)).symm
    simp [toBits, hnil]
  | some first =>
    obtain ⟨hi, hdrop⟩ := drop_findIdx? hf
    have hl : (t.octets.toList.drop first).length = 32 - first := by rw [List.length_drop, hlen]
    have hpos : t.octets.toList.drop first ≠ [] := by
      rw [← List.length_pos_iff, hl]
      omega
    have hslice : slice? t.octets.toList first (min (first + 3) 32) =
        some ((t.octets.toList.drop first).take 3) := by
      rw [slice?, if_pos ⟨by omega, by omega⟩]
      apply congrArg some
      rcases Nat.le_total (first + 3) 32 with h | h
      · rw [Nat.min_eq_left h, Nat.add_sub_cancel_left]
      · rw [Nat.min_eq_right h, List.take_of_length_le (by omega), List.take_of_length_le (by omega)]
    have he : (UInt32.ofNat (32 - first)).toNat = 32 - first := by
      rw [UInt32.toNat_ofNat']
      exact Nat.mod_eq_of_lt (by omega)
    obtain ⟨w, hw, hwn⟩ := gather?_eq ((t.octets.toList.drop first).take 3) (by simp)
    obtain ⟨m, hm, hmn⟩ := raise?_eq hpos (he.trans hl.symm) hwn
    have hlt : m.toNat < 2 ^ 24 := by
      rw [hmn]
      apply Nat.lt_of_lt_of_le (beNat_lt _)
      exact Nat.pow_le_pow_right (by decide) (List.length_take_le ..)
    have hj := join?_eq (e := UInt32.ofNat (32 - first)) (w := m) (by omega) hlt
    have hbits : t.toBits = if m.toNat < 2 ^ 23 then assemble (32 - first) m.toNat
        else assemble (32 - first + 1) (m.toNat / 256) := by
      unfold toBits
      rw [hdrop]
      dsimp only
      rw [hl, if_neg (by omega), hmn]
    rw [he] at hj
    rw [hbits, ← hj]
    dsimp only
    simp only [hslice, hw, hm, Option.bind_eq_bind, Option.bind_some]

end Placing

/-! ## the order -/

namespace Target

variable {s t : Target}

theorem toBits_of_value_eq_zero (h : t.value = 0) : t.toBits = 0 := by
  have hnil : significant t.octets.toList = [] := by
    rw [← List.length_eq_zero_iff, ← Nat.le_zero, length_significant_le_iff]
    show t.value < 1
    omega
  simp [toBits, hnil]

theorem toBits_le_of_le (h : s.value ≤ t.value) : s.toBits ≤ t.toBits := by
  by_cases hs : s.value = 0
  · rw [toBits_of_value_eq_zero hs, UInt32.le_iff_toNat_le]
    exact Nat.zero_le _
  · exact (leads_toBits hs).le_of_le (leads_toBits (by omega)) h

/-- bits that are written stand in the order of the numbers that are kept -/
theorem toBits_le_iff (s t : Target) :
    s.toBits ≤ t.toBits ↔ Compact.value s.toBits ≤ Compact.value t.toBits := by
  have hle {s t : Target} (h : Compact.value s.toBits ≤ Compact.value t.toBits) :
      s.toBits ≤ t.toBits := by
    by_cases hs : s.value = 0
    · exact toBits_le_of_le (hs ▸ Nat.zero_le _)
    · have hkept := (leads_toBits hs).isCanonical
      have ht : t.value ≠ 0 := by
        intro h0
        rw [toBits_of_value_eq_zero h0] at h
        exact hkept.value_ne_zero (Nat.le_zero.1 h)
      exact hkept.leads.le_of_le (leads_toBits ht).isCanonical.leads h
  refine ⟨fun h => Nat.not_lt.1 fun hlt => ?_, hle⟩
  have hge := hle (Nat.le_of_lt hlt)
  rw [UInt32.le_antisymm h hge] at hlt
  exact Nat.lt_irrefl _ hlt

theorem isNegative_toBits (t : Target) : isNegative t.toBits = false := by
  by_cases ht : t.value = 0
  · rw [toBits_of_value_eq_zero ht]
    rfl
  · exact (leads_toBits ht).isNegative_eq

theorem exponent_toBits_le (t : Target) : exponent t.toBits ≤ 33 := by
  by_cases ht : t.value = 0
  · rw [toBits_of_value_eq_zero ht]
    decide
  · exact (leads_toBits ht).exponent_le t.value_lt

theorem compare_eq (s t : Target) : s.compare t = Ord.compare s.value t.value :=
  compareBytes_eq (s.octets.length_toList.trans t.octets.length_toList.symm)

/-- The compact form keeps the order of targets, and tells two targets apart only in the order that
they have, which is then the order of what is kept of them.  It has no sign, and an exponent of 33 at
most.  The order is that of the numbers, for targets and for the hashes that meet them; and the form
is the word into which the bytes are shifted, without a shift or an index out of its range. -/
theorem compaction_ordered (s t : Target) :
    (s.value ≤ t.value → s.toBits ≤ t.toBits) ∧
    (s.toBits < t.toBits → s.value < t.value) ∧
    (s.toBits ≤ t.toBits ↔ Compact.value s.toBits ≤ Compact.value t.toBits) ∧
    t.toBits.toNat.testBit 23 = false ∧ exponent t.toBits ≤ 33 ∧
    (∀ hash : Digest, t.isMetBy hash = true ↔ beNat hash.toList ≤ t.value) ∧
    s.compare t = Ord.compare s.value t.value ∧
    Placing.pack? t.octets = some t.toBits := by
  refine ⟨toBits_le_of_le, ?_, toBits_le_iff s t, ?_, t.exponent_toBits_le, fun _ => isMetBy_iff,
    s.compare_eq t, Placing.pack?_eq t⟩
  · intro hlt
    refine Nat.not_le.1 fun hle => ?_
    have hge := toBits_le_of_le hle
    rw [UInt32.lt_iff_toNat_lt] at hlt
    rw [UInt32.le_iff_toNat_le] at hge
    omega
  · rw [← isNegative_eq_testBit, isNegative_toBits]

end Target

end HeaderMiner
