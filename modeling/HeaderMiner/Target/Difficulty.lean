import HeaderMiner.Target
/-!
# Difficulty

How hard a target is to meet, or how good a hash is, as a floating-point ratio for reports: the
256-bit number space over the number spelled, rounded down.  A number is read as four 64-bit words,
most significant first, each taken to the nearest double and scaled, and added in that order.
-/

namespace HeaderMiner.Difficulty

/-- the size of the number space, `2 ^ 256` -/
def space : Float := Float.scaleB 1 256

/-- the 64-bit words of a byte string, most significant first -/
def words : Nat → List UInt8 → List UInt64
  | 0, _ => []
  | k + 1, bs => UInt64.ofNat (beNat (bs.take 8)) :: words k (bs.drop 8)

/-- a 256-bit number as a double -/
def approximate (o : Octets 32) : Float :=
  match words 4 o.toList with
  | [a, b, c, d] =>
    a.toFloat.scaleB 192 + b.toFloat.scaleB 128 + c.toFloat.scaleB 64 + d.toFloat
  | _ => 0

def ofOctets (o : Octets 32) : Float :=
  let n := approximate o
  if n == 0 then space else (space / n).floor

end HeaderMiner.Difficulty

namespace HeaderMiner

def Target.difficulty (t : Target) : Float := Difficulty.ofOctets t.octets

/-- the difficulty that a hash would meet -/
def shareOf (hash : Digest) : Float := Difficulty.ofOctets hash

end HeaderMiner
