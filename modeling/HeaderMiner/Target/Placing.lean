import HeaderMiner.Target.Compact
/-!
# Compact targets placed in a buffer

Compact bits read the way a machine does it: in words of 32 bits, and with a buffer of 32 bytes into
which the mantissa is written from its last byte towards the front; and written the same way, from a
buffer whose first bytes that count are shifted into a word.  A shift by the width of a word, a
difference below zero and an index outside the buffer have no result, and neither has a reading or
a writing that would come to one.
-/

namespace HeaderMiner.Placing

/-- a word shifted to the right by less than its width -/
def shiftRight? (word amount : UInt32) : Option UInt32 :=
  if amount < 32 then some (word >>> amount) else none

/-- a word shifted to the left by less than its width -/
def shiftLeft? (word amount : UInt32) : Option UInt32 :=
  if amount < 32 then some (word <<< amount) else none

/-- a difference of words that is not below zero -/
def sub? (a b : UInt32) : Option UInt32 := if b ≤ a then some (a - b) else none

/-- a buffer with a byte written at an index inside it -/
def write? (buffer : Octets 32) (i : Int) (b : UInt8) : Option (Octets 32) :=
  if 0 ≤ i ∧ i < 32 then some ⟨buffer.toList.set i.toNat b, by simp⟩ else none

/-- writes the bytes of a word from an index towards the front, while the word has any and the buffer
has room, and gives what is left of the word -/
def fill? (word : UInt32) (i : Int) (buffer : Octets 32) : Option (UInt32 × Octets 32) :=
  if _h : word ≠ 0 ∧ 0 ≤ i then do
    let buffer ← write? buffer i word.toUInt8
    let word ← shiftRight? word 8
    fill? word (i - 1) buffer
  else some (word, buffer)
termination_by (i + 1).toNat
decreasing_by omega

/-- the part of a mantissa that is not cut, and the number of bytes behind it -/
def align? (exponent mantissa : UInt32) : Option (UInt32 × Int) :=
  if exponent ≤ 3 then do
    let cut ← sub? 3 exponent
    let word ← shiftRight? mantissa (8 * cut)
    return (word, 0)
  else do
    let behind ← sub? exponent 3
    return (mantissa, Int.ofNat behind.toNat)

def read? (bits : UInt32) : Option (Except Error Target) := do
  if bits = 0 then return .error .invalidTarget
  let sign ← shiftRight? bits 23
  if sign &&& 1 = 1 then return .error .negativeTarget
  let exponent ← shiftRight? bits 24
  let (word, behind) ← align? exponent (bits &&& 0x7fffff)
  let (left, buffer) ← fill? word (31 - behind) (.replicate 32 0)
  if left ≠ 0 then return .error .targetOverflow
  return .ok ⟨buffer⟩

/-! ## writing -/

/-- the bytes of a buffer from an index up to another -/
def slice? (buffer : List UInt8) (i j : Nat) : Option (List UInt8) :=
  if i ≤ j ∧ j ≤ buffer.length then some ((buffer.drop i).take (j - i)) else none

/-- bytes shifted into a word, most significant first -/
def gather? (bytes : List UInt8) : Option UInt32 :=
  bytes.foldlM (fun word b => do return (← shiftLeft? word 8) ||| b.toUInt32) 0

/-- exponent and mantissa in one word; a mantissa that reaches the sign bit loses its last byte -/
def join? (exponent mantissa : UInt32) : Option UInt32 :=
  if mantissa &&& 0x800000 ≠ 0 then do
    let mantissa ← shiftRight? mantissa 8
    return (← shiftLeft? (exponent + 1) 24) ||| mantissa
  else do
    return (← shiftLeft? exponent 24) ||| mantissa

/-- a mantissa of fewer than three bytes, moved to where one of three would stand -/
def raise? (exponent mantissa : UInt32) : Option UInt32 :=
  if exponent < 3 then do shiftLeft? mantissa (8 * (← sub? 3 exponent)) else some mantissa

/-- the compact form of a target in a buffer -/
def pack? (buffer : Octets 32) : Option UInt32 :=
  match buffer.toList.findIdx? (· != 0) with
  | none => some 0
  | some first => do
    let exponent := UInt32.ofNat (32 - first)
    let mantissa ← gather? (← slice? buffer.toList first (min (first + 3) 32))
    join? exponent (← raise? exponent mantissa)

end HeaderMiner.Placing
