import HeaderMiner.Target
/-!
# The order of targets is the order of numbers

Byte strings of one size are compared byte by byte, and this is the comparison of the numbers that
they spell (`compareBytes_eq`): the first byte that differs outweighs all that follow it.  So a hash
meets a target exactly if its number is not larger (`Target.isMetBy_iff`), and a target is known from
its number (`Target.eq_of_value`).
-/

namespace HeaderMiner

/-! ## numbers in bytes, most significant first -/

theorem leNat_append (as bs : List UInt8) :
    leNat (as ++ bs) = leNat as + 256 ^ as.length * leNat bs := by
  induction as with
  | nil => simp [leNat]
  | cons a as ih =>
    have hp : 256 ^ (as.length + 1) = 256 * 256 ^ as.length := by rw [Nat.pow_succ, Nat.mul_comm]
    rw [List.cons_append, leNat_cons, leNat_cons, ih, List.length_cons, hp, Nat.mul_add,
      Nat.mul_assoc, Nat.add_assoc]

theorem beNat_append (as bs : List UInt8) :
    beNat (as ++ bs) = beNat as * 256 ^ bs.length + beNat bs := by
  rw [beNat, List.reverse_append, leNat_append, List.length_reverse, Nat.add_comm, Nat.mul_comm]
  rfl

theorem beNat_cons (b : UInt8) (bs : List UInt8) :
    beNat (b :: bs) = b.toNat * 256 ^ bs.length + beNat bs := by
  have hb : beNat [b] = b.toNat := by simp [beNat, leNat]
  rw [← List.singleton_append, beNat_append, hb]

theorem beNat_lt (bs : List UInt8) : beNat bs < 256 ^ bs.length := by
  have h := leNat_lt bs.reverse
  rwa [List.length_reverse] at h

theorem beNat_replicate_zero (n : Nat) : beNat (List.replicate n 0) = 0 := by
  induction n with
  | zero => rfl
  | succ n ih => rw [List.replicate_succ, beNat_cons, ih]; simp

theorem eq_of_beNat {as bs : List UInt8} (hl : as.length = bs.length) (h : beNat as = beNat bs) :
    as = bs := by
  rw [← beBytes_beNat as, ← beBytes_beNat bs, hl, h]

/-! ## the order -/

/-- byte strings of one size stand in the order of their numbers -/
theorem compareBytes_eq {as bs : List UInt8} (hl : as.length = bs.length) :
    compareBytes as bs = compare (beNat as) (beNat bs) := by
  induction as generalizing bs with
  | nil =>
    obtain rfl := List.length_eq_zero_iff.1 hl.symm
    rfl
  | cons a as ih =>
    cases bs with
    | nil => cases hl
    | cons b bs =>
      have hl' : as.length = bs.length := Nat.succ.inj hl
      have ha : beNat as < 256 ^ bs.length := hl' ▸ beNat_lt as
      have hb : beNat bs < 256 ^ bs.length := beNat_lt bs
      rw [compareBytes, beNat_cons, beNat_cons, hl']
      split
      · next hab =>
        have hlt : (a.toNat + 1) * 256 ^ bs.length ≤ b.toNat * 256 ^ bs.length :=
          Nat.mul_le_mul_right _ (UInt8.lt_iff_toNat_lt.1 hab)
        rw [Nat.succ_mul] at hlt
        exact (Nat.compare_eq_lt.2 (by omega)).symm
      · next hab =>
        split
        · next hba =>
          have hlt : (b.toNat + 1) * 256 ^ bs.length ≤ a.toNat * 256 ^ bs.length :=
            Nat.mul_le_mul_right _ (UInt8.lt_iff_toNat_lt.1 hba)
          rw [Nat.succ_mul] at hlt
          exact (Nat.compare_eq_gt.2 (by omega)).symm
        · next hba =>
          have he : a.toNat = b.toNat := by
            rw [UInt8.lt_iff_toNat_lt] at hab hba
            omega
          have hc (x y z : Nat) : compare (z + x) (z + y) = compare x y := by
            rw [Nat.compare_eq_ite_lt, Nat.compare_eq_ite_lt]
            simp
          rw [ih hl', he, hc]

namespace Target

theorem value_lt (t : Target) : t.value < 256 ^ 32 := by
  have h := beNat_lt t.octets.toList
  rwa [t.octets.length_toList] at h

theorem eq_of_value {s t : Target} (h : s.value = t.value) : s = t := by
  obtain ⟨s⟩ := s
  obtain ⟨t⟩ := t
  have hl : s.toList.length = t.toList.length := s.length_toList.trans t.length_toList.symm
  exact congrArg mk (Octets.ext (eq_of_beNat hl h))

/-- a hash meets a target exactly if its number is not larger -/
theorem isMetBy_iff {t : Target} {hash : Digest} :
    t.isMetBy hash = true ↔ beNat hash.toList ≤ t.value := by
  have hl : hash.toList.length = t.octets.toList.length := by
    rw [hash.length_toList, t.octets.length_toList]
  unfold isMetBy
  rw [compareBytes_eq hl, bne_iff_ne, ne_eq, Nat.compare_eq_gt, Nat.not_lt]
  rfl

theorem isMetBy_of_le {s t : Target} {hash : Digest} (h : s.value ≤ t.value)
    (hs : s.isMetBy hash = true) : t.isMetBy hash = true :=
  isMetBy_iff.2 (Nat.le_trans (isMetBy_iff.1 hs) h)

end Target

end HeaderMiner
