import HeaderMiner.Utf8
import HeaderMiner.Text.Quoted
/-!
# Hexadecimal text

Two digits a byte, the high one first.  Writing uses lower case, reading takes either.  A text is
read as bytes, so the position of a bad digit counts bytes, and the digit named is that one byte.
An odd length is found before any bad digit.
-/

namespace HeaderMiner.Hex

inductive Fault where
  | oddLength
  | badDigit (digit : UInt8) (position : Nat)
deriving DecidableEq, Repr

/-- the wording of a fault; the byte is shown as the character of its number -/
def Fault.message : Fault → String
  | .oddLength => "Odd number of digits"
  | .badDigit digit position =>
    "Invalid character " ++ Text.quotedChar (Char.ofNat digit.toNat) ++ " at position "
      ++ toString position

/-! ## digits -/

def digit (v : UInt8) : Char :=
  if v < 10 then Char.ofNat (48 + v.toNat) else Char.ofNat (87 + v.toNat)

def value? (c : UInt8) : Option UInt8 :=
  if 48 ≤ c ∧ c ≤ 57 then some (c - 48)
  else if 97 ≤ c ∧ c ≤ 102 then some (c - 87)
  else if 65 ≤ c ∧ c ≤ 70 then some (c - 55)
  else none

/-! ## texts -/

def byteDigits (b : UInt8) : List Char := [digit (b / 16), digit (b % 16)]

def encode (bs : List UInt8) : String := String.ofList (bs.flatMap byteDigits)

/-- reads the digits from a position on, two at a time -/
def decodeFrom : Nat → List UInt8 → Except Fault (List UInt8)
  | _, [] => .ok []
  | _, [_] => .error .oddLength
  | pos, hi :: lo :: rest =>
    match value? hi with
    | none => .error (.badDigit hi pos)
    | some h =>
      match value? lo with
      | none => .error (.badDigit lo (pos + 1))
      | some l => (decodeFrom (pos + 2) rest).map ((h * 16 + l) :: ·)

/-- the bytes that a hexadecimal text spells -/
def decode (s : String) : Except Fault (List UInt8) :=
  let bs := Utf8.encode s
  if bs.length % 2 = 1 then .error .oddLength else decodeFrom 0 bs

/-- reads a byte string of a known size; the length of the text is checked first and counts bytes -/
def decodeSized {ε : Type} (size : Nat) (refuse : String → ε) (s : String) :
    Except ε (List UInt8) :=
  if s.utf8ByteSize = 2 * size then
    (decode s).mapError fun f => refuse ("invalid hex: " ++ f.message)
  else .error (refuse s!"expected {2 * size} hex chars, got {s.utf8ByteSize}")

end HeaderMiner.Hex
