import HeaderMiner.Proofs.Target.Order
import HeaderMiner.Target.Compact
/-!
# Compaction rounds down

Compact bits have a number (`Compact.value`), and reading them gives the target of that number if it
has one (`ofBits_eq_ok_iff`).  Writing a target keeps the leading digits of its number: at the
exponent that is written, the mantissa is the number cut to an integer, and it is too large for the
next exponent (`Compact.Leads`).  All else follows from these two facts.

* `Leads.value_le`, `Leads.le_value`   what is kept is the largest number of all compact bits that is
  not above the number: a larger exponent has fewer of them, and a smaller one only smaller ones;
* `Leads.unique`   only one exponent leaves a mantissa of that size, so a number has one canonical
  encoding, and compacting twice is compacting once.
-/

namespace HeaderMiner

/-! ## leading digits -/

theorem beNat_take (bs : List UInt8) (i : Nat) :
    beNat (bs.take i) = beNat bs / 256 ^ (bs.length - i) := by
  have hlt : beNat (bs.drop i) < 256 ^ (bs.length - i) := by
    have h := beNat_lt (bs.drop i)
    rwa [List.length_drop] at h
  have hsplit := beNat_append (bs.take i) (bs.drop i)
  rw [List.take_append_drop, List.length_drop] at hsplit
  rw [hsplit, Nat.mul_comm, Nat.mul_add_div (Nat.pow_pos (by decide)), Nat.div_eq_of_lt hlt,
    Nat.add_zero]

namespace Target

theorem beNat_significant (bs : List UInt8) : beNat (significant bs) = beNat bs := by
  induction bs with
  | nil => rfl
  | cons b bs ih =>
    unfold significant at ih ⊢
    rw [List.dropWhile_cons]
    split
    · next hb =>
      have h0 : b = 0 := by simpa using hb
      rw [ih, beNat_cons, h0]
      simp
    · rfl

theorem pow_le_of_lt_length {bs : List UInt8} {k : Nat} (h : k < (significant bs).length) :
    256 ^ k ≤ beNat bs := by
  induction bs with
  | nil => exact absurd h (Nat.not_lt_zero k)
  | cons b bs ih =>
    unfold significant at ih h
    rw [List.dropWhile_cons] at h
    rw [beNat_cons]
    split at h
    · exact Nat.le_trans (ih h) (Nat.le_add_left ..)
    · next hb =>
      have h1 : 1 ≤ b.toNat := by
        rw [Nat.one_le_iff_ne_zero, ne_eq, ← UInt8.toNat_zero, UInt8.toNat_inj]
        simpa using hb
      have hk : 256 ^ k ≤ 256 ^ bs.length :=
        Nat.pow_le_pow_right (by decide) (Nat.le_of_lt_succ h)
      calc 256 ^ k ≤ 1 * 256 ^ bs.length := by rwa [Nat.one_mul]
        _ ≤ b.toNat * 256 ^ bs.length := Nat.mul_le_mul_right _ h1
        _ ≤ _ := Nat.le_add_right ..

theorem length_significant_le_iff {bs : List UInt8} {k : Nat} :
    (significant bs).length ≤ k ↔ beNat bs < 256 ^ k := by
  constructor
  · intro h
    rw [← beNat_significant]
    exact Nat.lt_of_lt_of_le (beNat_lt _) (Nat.pow_le_pow_right (by decide) h)
  · intro h
    exact Nat.not_lt.1 fun hk => Nat.not_le.2 h (pow_le_of_lt_length hk)

end Target

/-! ## compact bits -/

namespace Compact

theorem mantissa_lt (b : UInt32) : mantissa b < 2 ^ 23 := Nat.mod_lt _ (by decide)

theorem eq_of_parts {a b : UInt32} (ha : isNegative a = false) (hb : isNegative b = false)
    (he : exponent a = exponent b) (hm : mantissa a = mantissa b) : a = b := by
  simp only [isNegative, exponent, mantissa, decide_eq_false_iff_not] at ha hb he hm
  rw [← UInt32.toNat_inj]
  omega

theorem parts_assemble {e m : Nat} (he : e < 256) (hm : m < 2 ^ 23) :
    exponent (assemble e m) = e ∧ mantissa (assemble e m) = m ∧
      isNegative (assemble e m) = false := by
  have hn : (assemble e m).toNat = e * 2 ^ 24 + m := by
    rw [assemble, UInt32.toNat_ofNat']
    exact Nat.mod_eq_of_lt (by omega)
  simp only [exponent, mantissa, isNegative, hn, decide_eq_false_iff_not]
  omega

/-- from the third exponent on no digit of the mantissa is cut -/
theorem value_eq {b : UInt32} (h : 3 ≤ exponent b) :
    value b = mantissa b * 256 ^ (exponent b - 3) := by
  obtain ⟨d, hd⟩ := Nat.exists_eq_add_of_le h
  rw [value, hd, Nat.add_sub_cancel_left, Nat.pow_add, Nat.mul_left_comm,
    Nat.mul_div_cancel_left _ (by decide)]

/-- whether the mantissa of bits without a sign is a number cut at their exponent, and too large for
the next one -/
structure Leads (b : UInt32) (n : Nat) : Prop where
  isNegative_eq : isNegative b = false
  mantissa_eq : mantissa b = n * 256 ^ 3 / 256 ^ exponent b
  le_mantissa : 2 ^ 15 ≤ mantissa b

/-- whether bits are the form in which a target is written: without a sign, with a mantissa too large
for the next exponent, and with no digit of it cut -/
structure IsCanonical (b : UInt32) : Prop where
  isNegative_eq : isNegative b = false
  le_mantissa : 2 ^ 15 ≤ mantissa b
  dvd : 256 ^ 3 ∣ mantissa b * 256 ^ exponent b

namespace Leads

variable {a b : UInt32} {n : Nat}

theorem value_le (h : Leads b n) : value b ≤ n := by
  have hle : mantissa b * 256 ^ exponent b ≤ n * 256 ^ 3 := by
    rw [h.mantissa_eq]
    exact Nat.div_mul_le_self ..
  rw [Nat.mul_comm n] at hle
  exact Nat.div_le_of_le_mul hle

/-- up to the third exponent nothing of the number is cut -/
theorem mul_eq (h : Leads b n) (he : exponent b ≤ 3) :
    mantissa b * 256 ^ exponent b = n * 256 ^ 3 := by
  rw [h.mantissa_eq]
  exact Nat.div_mul_cancel (Nat.dvd_mul_left_of_dvd (Nat.pow_dvd_pow 256 he) n)

theorem isCanonical (h : Leads b n) : IsCanonical b := by
  refine ⟨h.isNegative_eq, h.le_mantissa, ?_⟩
  rcases Nat.le_total (exponent b) 3 with he | he
  · rw [h.mul_eq he]
    exact Nat.dvd_mul_left ..
  · exact Nat.dvd_mul_left_of_dvd (Nat.pow_dvd_pow 256 he) _

/-- no compact bits have a number between what is kept and the number itself -/
theorem le_value (h : Leads b n) (ha : value a ≤ n) : value a ≤ value b := by
  rcases Nat.lt_or_ge (exponent a) (exponent b) with he | he
  · -- even the largest mantissa stays below at a smaller exponent
    have hm : mantissa a ≤ mantissa b * 256 := by
      have h1 := mantissa_lt a
      have h2 := h.le_mantissa
      omega
    have hle : mantissa a * 256 ^ exponent a ≤ mantissa b * 256 ^ exponent b := calc
      mantissa a * 256 ^ exponent a ≤ mantissa b * 256 * 256 ^ exponent a :=
        Nat.mul_le_mul_right _ hm
      _ = mantissa b * 256 ^ (exponent a + 1) := by
        rw [Nat.mul_assoc, Nat.pow_succ, Nat.mul_comm 256]
      _ ≤ mantissa b * 256 ^ exponent b :=
        Nat.mul_le_mul_left _ (Nat.pow_le_pow_right (by decide) he)
    exact Nat.div_le_div_right hle
  · rcases Nat.le_total (exponent b) 3 with hb | hb
    · have hv : value b = n := by
        rw [value, h.mul_eq hb, Nat.mul_div_cancel _ (by decide)]
      rwa [hv]
    · -- at the same or a larger exponent both are multiples of one power
      obtain ⟨d, hd⟩ := Nat.exists_eq_add_of_le hb
      obtain ⟨i, hi⟩ := Nat.exists_eq_add_of_le he
      have hm : mantissa b = n / 256 ^ d := by
        rw [h.mantissa_eq, hd, Nat.pow_add, Nat.mul_comm n, Nat.mul_div_mul_left _ _ (by decide)]
      have hav : value a = mantissa a * 256 ^ i * 256 ^ d := by
        rw [value_eq (Nat.le_trans hb he), hi, hd, Nat.add_assoc, Nat.add_sub_cancel_left,
          Nat.pow_add, Nat.mul_comm (256 ^ d), Nat.mul_assoc]
      have hbv : value b = n / 256 ^ d * 256 ^ d := by
        rw [value_eq hb, hm, hd, Nat.add_sub_cancel_left]
      rw [hav] at ha
      rw [hav, hbv]
      exact Nat.mul_le_mul_right _ ((Nat.le_div_iff_mul_le (Nat.pow_pos (by decide))).2 ha)

/-- a larger number leaves no mantissa that fits and is too large for the next exponent at a smaller
exponent -/
theorem exponent_le_of_le {m : Nat} (h : Leads b m) (ha : Leads a n) (hmn : m ≤ n) :
    exponent b ≤ exponent a := by
  refine Nat.not_lt.1 fun he => ?_
  have hle : mantissa b ≤ mantissa a / 256 := by
    rw [h.mantissa_eq, ha.mantissa_eq, Nat.div_div_eq_div_mul, ← Nat.pow_succ]
    exact Nat.div_le_div (Nat.mul_le_mul_right _ hmn) (Nat.pow_le_pow_right (by decide) he)
      (Nat.ne_of_gt (Nat.pow_pos (by decide)))
  have h1 := mantissa_lt a
  have h2 := h.le_mantissa
  omega

theorem unique (h : Leads b n) (ha : Leads a n) : b = a := by
  have he : exponent b = exponent a := Nat.le_antisymm (h.exponent_le_of_le ha (Nat.le_refl n))
    (ha.exponent_le_of_le h (Nat.le_refl n))
  refine eq_of_parts h.isNegative_eq ha.isNegative_eq he ?_
  rw [h.mantissa_eq, ha.mantissa_eq, he]

end Leads

namespace IsCanonical

variable {b : UInt32}

theorem leads (h : IsCanonical b) : Leads b (value b) := by
  refine ⟨h.isNegative_eq, ?_, h.le_mantissa⟩
  rw [value, Nat.div_mul_cancel h.dvd, Nat.mul_div_cancel _ (Nat.pow_pos (by decide))]

theorem value_ne_zero (h : IsCanonical b) : value b ≠ 0 := by
  intro h0
  have hm := h.leads.mantissa_eq
  rw [h0, Nat.zero_mul, Nat.zero_div] at hm
  have h15 := h.le_mantissa
  omega

theorem ne_zero (h : IsCanonical b) : b ≠ 0 := by
  rintro rfl
  have h15 := h.le_mantissa
  revert h15
  decide

end IsCanonical

end Compact

/-! ## reading and writing targets -/

namespace Target

open HeaderMiner.Compact

variable {t : Target} {b : UInt32}

/-- the bytes of a mantissa at the place of its exponent spell the number of the bits -/
theorem beNat_placed {e m : Nat} (hm : m < 256 ^ 3) :
    beNat (placed e m) = m * 256 ^ e / 256 ^ 3 := by
  have hd : beNat (beBytes 3 m) = m := by rw [beNat_beBytes, Nat.mod_eq_of_lt hm]
  unfold placed
  dsimp only
  rw [beNat_significant]
  split
  · next he =>
    obtain ⟨d, hd3⟩ := Nat.exists_eq_add_of_le he
    rw [beNat_take, hd, length_beBytes, hd3, Nat.add_sub_cancel_left, Nat.pow_add,
      Nat.mul_comm m, Nat.mul_div_mul_left _ _ (Nat.pow_pos (by decide))]
  · next he =>
    obtain ⟨d, rfl⟩ := Nat.exists_eq_add_of_le (Nat.le_of_lt (Nat.not_le.1 he))
    rw [beNat_append, hd, beNat_replicate_zero, List.length_replicate, Nat.add_sub_cancel_left,
      Nat.pow_add, Nat.mul_left_comm, Nat.mul_div_cancel_left _ (by decide), Nat.add_zero]

/-- compact bits are read as the target of their number, if it has one -/
theorem ofBits_eq_ok_iff :
    ofBits b = .ok t ↔ b ≠ 0 ∧ isNegative b = false ∧ Compact.value b = t.value := by
  have hm : mantissa b < 256 ^ 3 := Nat.lt_trans (mantissa_lt b) (by decide)
  have hp : beNat (placed (exponent b) (mantissa b)) = Compact.value b := beNat_placed hm
  unfold ofBits
  dsimp only
  by_cases h0 : b = 0
  · simp [h0]
  · by_cases hn : isNegative b = true
    · simp [h0, hn]
    · rw [if_neg h0, if_neg hn]
      have hv (h : (placed (exponent b) (mantissa b)).length ≤ 32) :
          value ⟨⟨List.replicate (32 - (placed (exponent b) (mantissa b)).length) 0 ++
            placed (exponent b) (mantissa b), by simp; omega⟩⟩ = Compact.value b := by
        rw [value, beNat_append, beNat_replicate_zero, Nat.zero_mul, Nat.zero_add, hp]
      constructor
      · intro h
        split at h
        · next hl =>
          cases h
          exact ⟨h0, Bool.eq_false_iff.2 hn, (hv hl).symm⟩
        · cases h
      · rintro ⟨_, _, ht⟩
        have hl : (placed (exponent b) (mantissa b)).length ≤ 32 := by
          refine length_significant_le_iff.2 ?_
          rw [← beNat_significant]
          exact (hp.trans ht) ▸ t.value_lt
        rw [dif_pos hl]
        exact congrArg Except.ok (eq_of_value ((hv hl).trans ht))

theorem leads_toBits (h : t.value ≠ 0) : Leads t.toBits t.value := by
  unfold toBits
  dsimp only
  generalize hk : (significant t.octets.toList).length = k
  generalize hd : significant t.octets.toList = digits at hk
  have hn : beNat digits = t.value := hd ▸ beNat_significant _
  have hk32 : k ≤ 32 := hk ▸ hd ▸ length_significant_le_iff.2 t.value_lt
  have hlt : t.value < 256 ^ k := length_significant_le_iff.1 (hk ▸ hd ▸ Nat.le_refl _)
  have hk0 : k ≠ 0 := by
    rintro rfl
    exact h (Nat.lt_one_iff.1 hlt)
  have hM : beNat ((digits ++ [0, 0, 0]).take 3) = t.value * 256 ^ 3 / 256 ^ k := by
    have hz : beNat [0, 0, 0] = 0 := rfl
    have hl : ([0, 0, 0] : List UInt8).length = 3 := rfl
    rw [beNat_take, beNat_append, hz, hn, List.length_append, hk, hl, Nat.add_sub_cancel,
      Nat.add_zero]
  rw [if_neg hk0, hM]
  obtain ⟨j, rfl⟩ := Nat.exists_eq_add_one_of_ne_zero hk0
  have hge : 256 ^ j ≤ t.value :=
    pow_le_of_lt_length (hd ▸ hk ▸ Nat.lt_succ_self j)
  -- three bytes of which the first is not zero
  have hM2 : 2 ^ 16 ≤ t.value * 256 ^ 3 / 256 ^ (j + 1) := by
    rw [Nat.le_div_iff_mul_le (Nat.pow_pos (by decide)), Nat.pow_succ]
    omega
  have hM3 : t.value * 256 ^ 3 / 256 ^ (j + 1) < 2 ^ 24 := by
    rw [Nat.div_lt_iff_lt_mul (Nat.pow_pos (by decide))]
    omega
  split
  · next hs =>
    obtain ⟨he, hm, hneg⟩ := parts_assemble (e := j + 1) (by omega) hs
    exact ⟨hneg, by rw [hm, he], by rw [hm]; omega⟩
  · next hs =>
    obtain ⟨he, hm, hneg⟩ := parts_assemble (e := j + 1 + 1)
      (m := t.value * 256 ^ 3 / 256 ^ (j + 1) / 256) (by omega) (by omega)
    refine ⟨hneg, ?_, by rw [hm]; omega⟩
    rw [hm, he, Nat.div_div_eq_div_mul, Nat.pow_succ 256 (j + 1)]

/-- the canonical form is the only one in which a target is written -/
theorem toBits_eq (hc : IsCanonical b) (hb : ofBits b = .ok t) : t.toBits = b := by
  have hv : Compact.value b = t.value := (ofBits_eq_ok_iff.1 hb).2.2
  have hl : Leads b t.value := hv ▸ hc.leads
  exact (leads_toBits (hv ▸ hc.value_ne_zero)).unique hl

/-- Writing a target in compact form and reading it back gives the largest target that can be read
from compact bits and is not above it.  A target that can be read from compact bits comes back as it
was, its written form is the one canonical form that it has, and no hash is let through that the
target itself would not let through. -/
theorem compaction_rounds_down (ht : t.value ≠ 0) :
    ∃ c : Target, ofBits t.toBits = .ok c ∧ c.value ≤ t.value ∧
      (∀ b u, ofBits b = .ok u → u.value ≤ t.value → u.value ≤ c.value) ∧
      c.toBits = t.toBits ∧
      (∀ b, ofBits b = .ok t → c = t) ∧
      IsCanonical t.toBits ∧ (∀ b, IsCanonical b → ofBits b = .ok c → b = t.toBits) ∧
      ∀ hash, c.isMetBy hash = true → t.isMetBy hash = true := by
  have hl := leads_toBits ht
  have hlt : Compact.value t.toBits < 256 ^ 32 := Nat.lt_of_le_of_lt hl.value_le t.value_lt
  obtain ⟨c, hc⟩ : ∃ c : Target, Compact.value t.toBits = c.value := by
    refine ⟨⟨beBytes 32 (Compact.value t.toBits), length_beBytes ..⟩, ?_⟩
    rw [value, beNat_beBytes, Nat.mod_eq_of_lt hlt]
  have hr : ofBits t.toBits = .ok c :=
    ofBits_eq_ok_iff.2 ⟨hl.isCanonical.ne_zero, hl.isNegative_eq, hc⟩
  have hle : c.value ≤ t.value := hc ▸ hl.value_le
  have hgreatest : ∀ b u, ofBits b = .ok u → u.value ≤ t.value → u.value ≤ c.value := by
    intro b u hu hut
    have hv := (ofBits_eq_ok_iff.1 hu).2.2
    rw [← hc, ← hv]
    exact hl.le_value (hv ▸ hut)
  refine ⟨c, hr, hle, hgreatest, toBits_eq hl.isCanonical hr, ?_, hl.isCanonical, ?_, ?_⟩
  · intro b hb
    exact eq_of_value (Nat.le_antisymm hle (hgreatest b t hb (Nat.le_refl _)))
  · intro b hb hbc
    rw [← toBits_eq hb hbc, toBits_eq hl.isCanonical hr]
  · intro hash hh
    exact isMetBy_of_le hle hh

theorem compaction_rounds_down_max :
    max.value ≠ 0 ∧ max.toBits = 0x2100ffff ∧ ∃ c : Target, ofBits 0x2100ffff = .ok c ∧
      c.value ≤ max.value ∧ (∀ b u, ofBits b = .ok u → u.value ≤ max.value → u.value ≤ c.value) ∧
      c.toBits = 0x2100ffff ∧ IsCanonical 0x2100ffff := by
  have h0 : max.value ≠ 0 := by decide +kernel
  have hb : max.toBits = 0x2100ffff := by decide +kernel
  obtain ⟨c, hc, hle, hgreatest, hcb, _, hcan, _⟩ := compaction_rounds_down h0
  rw [hb] at hc hcb hcan
  exact ⟨h0, hb, c, hc, hle, hgreatest, hcb, hcan⟩

end Target

end HeaderMiner
