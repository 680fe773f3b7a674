import HeaderMiner.Error
import HeaderMiner.Hex
/-!
# Targets

A target is a 256-bit threshold, most significant byte first.  A hash meets it when it comes at or
before it in the order of byte strings, which for byte strings of one size is the order of the
numbers that they spell (`compare`, `value`).
-/

namespace HeaderMiner

abbrev Digest := Octets 32

/-- a threshold of 32 bytes, most significant first -/
structure Target where
  octets : Octets 32
deriving DecidableEq

/-- the order of byte strings: the first different byte decides, and a beginning comes first -/
def compareBytes : List UInt8 → List UInt8 → Ordering
  | [], [] => .eq
  | [], _ :: _ => .lt
  | _ :: _, [] => .gt
  | a :: as, b :: bs => if a < b then .lt else if b < a then .gt else compareBytes as bs

namespace Target

def value (t : Target) : Nat := beNat t.octets.toList

/-- the largest target, which every hash meets -/
def max : Target := ⟨.replicate 32 0xff⟩

def toHex (t : Target) : String := Hex.encode t.octets.toList

def ofBytes (bs : List UInt8) : Except Error Target :=
  match Octets.ofList? 32 bs with
  | some o => .ok ⟨o⟩
  | none => .error (.badTargetSize s!"expected 32 bytes, got {bs.length}")

def ofHex (s : String) : Except Error Target := do
  ofBytes (← Hex.decodeSized 32 .badTargetSize s)

def compare (a b : Target) : Ordering := compareBytes a.octets.toList b.octets.toList

def isMetBy (t : Target) (hash : Digest) : Bool :=
  compareBytes hash.toList t.octets.toList != .gt

end Target

end HeaderMiner
