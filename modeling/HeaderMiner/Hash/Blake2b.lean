import HeaderMiner.Octets
/-!
# BLAKE2b

The hash without a key.  The sixteen working words stand in four rows of four; one round mixes the
four columns and then, with the rows turned against each other, the four diagonals, so both halves
are the same row operation.
-/

namespace HeaderMiner.Blake2b

/-! ## rows of words -/

/-- four words that are worked on side by side -/
structure Row where
  x0 : UInt64
  x1 : UInt64
  x2 : UInt64
  x3 : UInt64
deriving DecidableEq

namespace Row

def add (a b : Row) : Row := ⟨a.x0 + b.x0, a.x1 + b.x1, a.x2 + b.x2, a.x3 + b.x3⟩

def xor (a b : Row) : Row := ⟨a.x0 ^^^ b.x0, a.x1 ^^^ b.x1, a.x2 ^^^ b.x2, a.x3 ^^^ b.x3⟩

/-- each word rotated to the right by `k` bits, where `0 < k < 64` -/
def rotate (a : Row) (k : UInt64) : Row :=
  ⟨(a.x0 >>> k) ||| (a.x0 <<< (64 - k)), (a.x1 >>> k) ||| (a.x1 <<< (64 - k)),
   (a.x2 >>> k) ||| (a.x2 <<< (64 - k)), (a.x3 >>> k) ||| (a.x3 <<< (64 - k))⟩

def turn (a : Row) : Row := ⟨a.x1, a.x2, a.x3, a.x0⟩

end Row

/-- the sixteen working words -/
structure Square where
  a : Row
  b : Row
  c : Row
  d : Row

/-- mixes the four columns with two message words each -/
def Square.mix (s : Square) (x y : Row) : Square :=
  let a := (s.a.add s.b).add x
  let d := (s.d.xor a).rotate 32
  let c := s.c.add d
  let b := (s.b.xor c).rotate 24
  let a := (a.add b).add y
  let d := (d.xor a).rotate 16
  let c := c.add d
  let b := (b.xor c).rotate 63
  ⟨a, b, c, d⟩

/-- turns the rows so that the diagonals become columns -/
def Square.diagonals (s : Square) : Square :=
  ⟨s.a, s.b.turn, s.c.turn.turn, s.d.turn.turn.turn⟩

/-- turns the rows back -/
def Square.columns (s : Square) : Square :=
  ⟨s.a, s.b.turn.turn.turn, s.c.turn.turn, s.d.turn⟩

/-! ## compression -/

/-- the order in which each round takes the message words -/
def schedule : List (List Nat) :=
  [[0, 1, 2, 3, 4, 5, 6, 7, 8, 9, 10, 11, 12, 13, 14, 15],
   [14, 10, 4, 8, 9, 15, 13, 6, 1, 12, 0, 2, 11, 7, 5, 3],
   [11, 8, 12, 0, 5, 2, 15, 13, 10, 14, 3, 6, 7, 1, 9, 4],
   [7, 9, 3, 1, 13, 12, 11, 14, 2, 6, 5, 10, 4, 0, 15, 8],
   [9, 0, 5, 7, 2, 4, 10, 15, 14, 1, 11, 12, 6, 8, 3, 13],
   [2, 12, 6, 10, 0, 11, 8, 3, 4, 13, 7, 5, 15, 14, 1, 9],
   [12, 5, 1, 15, 14, 13, 4, 10, 0, 7, 6, 3, 9, 2, 8, 11],
   [13, 11, 7, 14, 12, 1, 3, 9, 5, 0, 15, 4, 8, 6, 2, 10],
   [6, 15, 14, 9, 11, 3, 0, 8, 12, 2, 13, 7, 1, 4, 10, 5],
   [10, 2, 8, 4, 7, 6, 1, 5, 15, 11, 9, 14, 3, 12, 13, 0],
   [0, 1, 2, 3, 4, 5, 6, 7, 8, 9, 10, 11, 12, 13, 14, 15],
   [14, 10, 4, 8, 9, 15, 13, 6, 1, 12, 0, 2, 11, 7, 5, 3]]

/-- one round, taking the message words in the given order -/
def round (m : Array UInt64) (s : Square) : List Nat → Square
  | [i0, i1, i2, i3, i4, i5, i6, i7, i8, i9, i10, i11, i12, i13, i14, i15] =>
    let w := fun i => m.getD i 0
    let s := s.mix ⟨w i0, w i2, w i4, w i6⟩ ⟨w i1, w i3, w i5, w i7⟩
    (s.diagonals.mix ⟨w i8, w i10, w i12, w i14⟩ ⟨w i9, w i11, w i13, w i15⟩).columns
  | _ => s

def initial : Row × Row :=
  (⟨0x6a09e667f3bcc908, 0xbb67ae8584caa73b, 0x3c6ef372fe94f82b, 0xa54ff53a5f1d36f1⟩,
   ⟨0x510e527fade682d1, 0x9b05688c2b3e6c1f, 0x1f83d9abfb41bd6b, 0x5be0cd19137e2179⟩)

/-- the chain after a block, when `count` bytes have been taken and `last` marks the last block -/
def compress (h : Row × Row) (m : Array UInt64) (count : Nat) (last : Bool) : Row × Row :=
  let d := initial.2
  let d : Row :=
    ⟨d.x0 ^^^ UInt64.ofNat count, d.x1 ^^^ UInt64.ofNat (count / 2 ^ 64),
     if last then ~~~ d.x2 else d.x2, d.x3⟩
  let s := schedule.foldl (round m) ⟨h.1, h.2, initial.1, d⟩
  ((h.1.xor s.a).xor s.c, (h.2.xor s.b).xor s.d)

/-! ## hashing bytes -/

/-- the little-endian words of a block, padded with zero bytes to sixteen words -/
def blockWords (bs : List UInt8) : Nat → List UInt64
  | 0 => []
  | k + 1 => UInt64.ofNat (leNat (bs.take 8)) :: blockWords (bs.drop 8) k

/-- absorbs all bytes after the first `count`, the last block (possibly empty) marked as last -/
def absorb (h : Row × Row) (count : Nat) (bs : List UInt8) : Row × Row :=
  if 128 < bs.length then
    absorb (compress h (blockWords (bs.take 128) 16).toArray (count + 128) false) (count + 128)
      (bs.drop 128)
  else compress h (blockWords bs 16).toArray (count + bs.length) true
termination_by bs.length
decreasing_by simp; omega

def Row.toBytes (r : Row) : List UInt8 :=
  leBytes 8 r.x0.toNat ++ leBytes 8 r.x1.toNat ++ leBytes 8 r.x2.toNat ++ leBytes 8 r.x3.toNat

/-- the 64 chain bytes from which the `size` bytes of a digest are the first -/
def chainBytes (size : Nat) (bs : List UInt8) : List UInt8 :=
  let h := initial.1
  let start : Row × Row :=
    ({ h with x0 := h.x0 ^^^ 0x01010000 ^^^ UInt64.ofNat size }, initial.2)
  let h := absorb start 0 bs
  h.1.toBytes ++ h.2.toBytes

@[simp] theorem length_chainBytes (size : Nat) (bs : List UInt8) :
    (chainBytes size bs).length = 64 := by
  simp [chainBytes, Row.toBytes]

/-- the digest of `n` bytes, where `n ≤ 64` -/
def digest (n : Nat) (h : n ≤ 64) (bs : List UInt8) : Octets n :=
  ⟨(chainBytes n bs).take n, by simp [h]⟩

def hash256 (bs : List UInt8) : Octets 32 := digest 32 (by omega) bs

def hash512 (bs : List UInt8) : Octets 64 := digest 64 (by omega) bs

end HeaderMiner.Blake2b
