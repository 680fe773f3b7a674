import HeaderMiner.Hex
/-!
# Hexadecimal text reads back

The digits of a byte are ASCII, so the text of `n` bytes takes `2 * n` bytes (`length_digits`)
and reading it gives the bytes again (`decode_encode`).
-/

namespace HeaderMiner

theorem Utf8.length_encode (s : String) : (Utf8.encode s).length = s.utf8ByteSize := by
  obtain ⟨l, rfl⟩ : ∃ l, s = String.ofList l := ⟨s.toList, String.ofList_toList.symm⟩
  rw [Utf8.encode, String.toList_ofList, ← String.size_toByteArray, String.toByteArray_ofList,
    List.utf8Encode, List.size_toByteArray]

namespace Hex

def code (v : UInt8) : UInt8 := if v < 10 then 48 + v else 87 + v

theorem digit_laws (v : UInt8) (h : v < 16) :
    String.utf8EncodeChar (digit v) = [code v] ∧ value? (code v) = some v := by
  have all : ∀ k : Fin 16, String.utf8EncodeChar (digit (UInt8.ofNat k)) = [code (UInt8.ofNat k)] ∧
      value? (code (UInt8.ofNat k)) = some (UInt8.ofNat k) := by decide
  have hk : v.toNat < 16 := UInt8.lt_iff_toNat_lt.1 h
  have hv : UInt8.ofNat v.toNat = v := UInt8.ofNat_toNat
  have ha := all ⟨v.toNat, hk⟩
  rwa [hv] at ha

theorem div_lt (b : UInt8) : b / 16 < 16 := by
  have hb := b.toNat_lt
  rw [UInt8.lt_iff_toNat_lt, UInt8.toNat_div]
  show b.toNat / 16 < 16
  omega

theorem mod_lt (b : UInt8) : b % 16 < 16 := by
  rw [UInt8.lt_iff_toNat_lt, UInt8.toNat_mod]
  exact Nat.mod_lt _ (by decide)

theorem div_mul_add_mod (b : UInt8) : b / 16 * 16 + b % 16 = b := by
  have hb := b.toNat_lt
  rw [← UInt8.toNat_inj, UInt8.toNat_add, UInt8.toNat_mul, UInt8.toNat_div, UInt8.toNat_mod]
  show (b.toNat / 16 * 16 % 256 + b.toNat % 16) % 256 = b.toNat
  omega

theorem utf8_encode (bs : List UInt8) :
    Utf8.encode (encode bs) = bs.flatMap fun b => [code (b / 16), code (b % 16)] := by
  rw [Utf8.encode, encode, String.toList_ofList]
  induction bs with
  | nil => rfl
  | cons b bs ih =>
    rw [List.flatMap_cons, List.flatMap_append, ih, List.flatMap_cons]
    congr 1
    rw [byteDigits, List.flatMap_cons, List.flatMap_singleton, (digit_laws _ (div_lt b)).1,
      (digit_laws _ (mod_lt b)).1]
    rfl

theorem decodeFrom_digits (pos : Nat) (bs : List UInt8) :
    decodeFrom pos (bs.flatMap fun b => [code (b / 16), code (b % 16)]) = .ok bs := by
  induction bs generalizing pos with
  | nil => rfl
  | cons b bs ih =>
    show decodeFrom pos (code (b / 16) :: code (b % 16) :: bs.flatMap _) = _
    rw [decodeFrom, (digit_laws _ (div_lt b)).2, (digit_laws _ (mod_lt b)).2]
    simp only [ih]
    show Except.ok ((b / 16 * 16 + b % 16) :: bs) = _
    rw [div_mul_add_mod]

theorem length_digits (bs : List UInt8) :
    (bs.flatMap fun b => [code (b / 16), code (b % 16)]).length = 2 * bs.length := by
  induction bs with
  | nil => rfl
  | cons b bs ih =>
    rw [List.flatMap_cons, List.length_append, ih]
    show 2 + 2 * bs.length = 2 * (bs.length + 1)
    omega

theorem decode_encode (bs : List UInt8) : decode (encode bs) = .ok bs := by
  unfold decode
  dsimp only
  rw [utf8_encode, length_digits, if_neg (by omega), decodeFrom_digits]

end Hex

end HeaderMiner
