import HeaderMiner.Octets
/-!
# SHA3-256

The sponge with a rate of 136 bytes and 32 bytes of output.  The state is five planes of five
lanes; a step works on whole planes wherever that is possible.
-/

namespace HeaderMiner.Sha3

/-! ## planes of lanes -/

/-- five lanes side by side -/
structure Plane where
  x0 : UInt64
  x1 : UInt64
  x2 : UInt64
  x3 : UInt64
  x4 : UInt64
deriving DecidableEq

namespace Plane

def zero : Plane := ⟨0, 0, 0, 0, 0⟩

def xor (a b : Plane) : Plane :=
  ⟨a.x0 ^^^ b.x0, a.x1 ^^^ b.x1, a.x2 ^^^ b.x2, a.x3 ^^^ b.x3, a.x4 ^^^ b.x4⟩

/-- each lane combined with the two to its right -/
def chi (a : Plane) : Plane :=
  ⟨a.x0 ^^^ (~~~ a.x1 &&& a.x2), a.x1 ^^^ (~~~ a.x2 &&& a.x3), a.x2 ^^^ (~~~ a.x3 &&& a.x4),
   a.x3 ^^^ (~~~ a.x4 &&& a.x0), a.x4 ^^^ (~~~ a.x0 &&& a.x1)⟩

end Plane

/-- a lane rotated to the left by `k` bits, where `0 < k < 64` -/
def rotate (x k : UInt64) : UInt64 := (x <<< k) ||| (x >>> (64 - k))

/-- the twenty-five lanes -/
structure Cube where
  y0 : Plane
  y1 : Plane
  y2 : Plane
  y3 : Plane
  y4 : Plane

/-! ## the permutation -/

/-- adds to every lane the parities of two neighbouring columns -/
def theta (s : Cube) : Cube :=
  let c := (((s.y0.xor s.y1).xor s.y2).xor s.y3).xor s.y4
  let d : Plane :=
    ⟨c.x4 ^^^ rotate c.x1 1, c.x0 ^^^ rotate c.x2 1, c.x1 ^^^ rotate c.x3 1,
     c.x2 ^^^ rotate c.x4 1, c.x3 ^^^ rotate c.x0 1⟩
  ⟨s.y0.xor d, s.y1.xor d, s.y2.xor d, s.y3.xor d, s.y4.xor d⟩

/-- rotates every lane by its own amount and moves it to its new place -/
def rhoPi (s : Cube) : Cube :=
  ⟨⟨s.y0.x0, rotate s.y1.x1 44, rotate s.y2.x2 43, rotate s.y3.x3 21, rotate s.y4.x4 14⟩,
   ⟨rotate s.y0.x3 28, rotate s.y1.x4 20, rotate s.y2.x0 3, rotate s.y3.x1 45, rotate s.y4.x2 61⟩,
   ⟨rotate s.y0.x1 1, rotate s.y1.x2 6, rotate s.y2.x3 25, rotate s.y3.x4 8, rotate s.y4.x0 18⟩,
   ⟨rotate s.y0.x4 27, rotate s.y1.x0 36, rotate s.y2.x1 10, rotate s.y3.x2 15, rotate s.y4.x3 56⟩,
   ⟨rotate s.y0.x2 62, rotate s.y1.x3 55, rotate s.y2.x4 39, rotate s.y3.x0 41, rotate s.y4.x1 2⟩⟩

def chi (s : Cube) : Cube := ⟨s.y0.chi, s.y1.chi, s.y2.chi, s.y3.chi, s.y4.chi⟩

def iota (rc : UInt64) (s : Cube) : Cube := { s with y0 := { s.y0 with x0 := s.y0.x0 ^^^ rc } }

def round (s : Cube) (rc : UInt64) : Cube := iota rc (chi (rhoPi (theta s)))

def roundConstants : List UInt64 :=
  [0x0000000000000001, 0x0000000000008082, 0x800000000000808a, 0x8000000080008000,
   0x000000000000808b, 0x0000000080000001, 0x8000000080008081, 0x8000000000008009,
   0x000000000000008a, 0x0000000000000088, 0x0000000080008009, 0x000000008000000a,
   0x000000008000808b, 0x800000000000008b, 0x8000000000008089, 0x8000000000008003,
   0x8000000000008002, 0x8000000000000080, 0x000000000000800a, 0x800000008000000a,
   0x8000000080008081, 0x8000000000008080, 0x0000000080000001, 0x8000000080008008]

def permute (s : Cube) : Cube := roundConstants.foldl round s

/-! ## the sponge -/

def word (bs : List UInt8) (i : Nat) : UInt64 := UInt64.ofNat (leNat ((bs.drop (8 * i)).take 8))

/-- adds a block of 136 bytes to the first seventeen lanes -/
def addBlock (s : Cube) (bs : List UInt8) : Cube :=
  let w := word bs
  ⟨s.y0.xor ⟨w 0, w 1, w 2, w 3, w 4⟩, s.y1.xor ⟨w 5, w 6, w 7, w 8, w 9⟩,
   s.y2.xor ⟨w 10, w 11, w 12, w 13, w 14⟩, s.y3.xor ⟨w 15, w 16, 0, 0, 0⟩, s.y4⟩

/-- a last block of fewer than 136 bytes, filled up: the domain bits, zeros and the final bit -/
def padBlock (bs : List UInt8) : List UInt8 :=
  if bs.length = 135 then bs ++ [0x86]
  else bs ++ 0x06 :: List.replicate (134 - bs.length) 0 ++ [0x80]

/-- absorbs all bytes, the last block (possibly empty) padded -/
def absorb (s : Cube) (bs : List UInt8) : Cube :=
  if 136 ≤ bs.length then absorb (permute (addBlock s (bs.take 136))) (bs.drop 136)
  else permute (addBlock s (padBlock bs))
termination_by bs.length
decreasing_by simp; omega

def hash256 (bs : List UInt8) : Octets 32 :=
  let p := (absorb ⟨.zero, .zero, .zero, .zero, .zero⟩ bs).y0
  ⟨leBytes 8 p.x0.toNat ++ leBytes 8 p.x1.toNat ++ leBytes 8 p.x2.toNat ++ leBytes 8 p.x3.toNat,
   by simp⟩

end HeaderMiner.Sha3
