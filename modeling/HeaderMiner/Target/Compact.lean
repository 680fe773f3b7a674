import HeaderMiner.Target
/-!
# Compact targets

The compact form of a target is a 32-bit number: an exponent byte, a sign bit and a mantissa of 23
bits.  It stands for `mantissa · 256 ^ (exponent - 3)`, cut to an integer (`Compact.value`).
Writing keeps the three most significant bytes, or two when the leading one would reach the sign
bit, so it rounds down; reading puts the mantissa's bytes at their place, which fails only where
the number needs more than 32 bytes.
-/

namespace HeaderMiner

namespace Compact

def exponent (bits : UInt32) : Nat := bits.toNat / 2 ^ 24

def mantissa (bits : UInt32) : Nat := bits.toNat % 2 ^ 23

/-- whether the sign bit is set -/
def isNegative (bits : UInt32) : Bool := bits.toNat / 2 ^ 23 % 2 = 1

/-- the number that compact bits stand for -/
def value (bits : UInt32) : Nat := mantissa bits * 256 ^ exponent bits / 256 ^ 3

/-- compact bits from an exponent below 256 and a mantissa below `2 ^ 24` -/
def assemble (exponent mantissa : Nat) : UInt32 := UInt32.ofNat (exponent * 2 ^ 24 + mantissa)

end Compact

namespace Target

/-- the bytes from the first that is not zero on -/
def significant (bs : List UInt8) : List UInt8 := bs.dropWhile (· == 0)

def toBits (t : Target) : UInt32 :=
  let digits := significant t.octets.toList
  let size := digits.length
  let mantissa := beNat ((digits ++ [0, 0, 0]).take 3)
  if size = 0 then 0
  else if mantissa < 2 ^ 23 then Compact.assemble size mantissa
  else Compact.assemble (size + 1) (mantissa / 256)

/-- the bytes of a mantissa at the place that the exponent gives them, without leading zeros -/
def placed (exponent mantissa : Nat) : List UInt8 :=
  let digits := beBytes 3 mantissa
  significant <|
    if exponent ≤ 3 then digits.take exponent else digits ++ List.replicate (exponent - 3) 0

def ofBits (bits : UInt32) : Except Error Target :=
  if bits = 0 then .error .invalidTarget
  else if Compact.isNegative bits then .error .negativeTarget
  else
    let digits := placed (Compact.exponent bits) (Compact.mantissa bits)
    if h : digits.length ≤ 32 then
      .ok ⟨⟨List.replicate (32 - digits.length) 0 ++ digits, by simp; omega⟩⟩
    else .error .targetOverflow

end Target

end HeaderMiner
