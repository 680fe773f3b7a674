import HeaderMiner.Power
/-!
# Doubles as exact numbers

A finite double is `mantissa · 2 ^ exponent` with a sign.  Everything here is exact integer
arithmetic on that form: rounding to a fixed number of decimal places (`fixed`), and the decimal
with the fewest digits among those that read back as the double (`shortest`), found by testing the
two neighbours of the double on ever finer decimal grids.
-/

namespace HeaderMiner.Double

/-- the magnitude of a finite double, `mantissa · 2 ^ exponent`; `tight` marks the least mantissa of
its exponent, below which doubles stand twice as close -/
structure Magnitude where
  mantissa : Nat
  exponent : Int
  tight : Bool
deriving DecidableEq, Repr

inductive Kind where
  | nan
  | infinite (negative : Bool)
  | finite (negative : Bool) (m : Magnitude)
deriving DecidableEq, Repr

/-- the exact value that 64 bits stand for -/
def kindOf (bits : UInt64) : Kind :=
  let n := bits.toNat
  let negative := n / 2 ^ 63 = 1
  let e := n / 2 ^ 52 % 2 ^ 11
  let f := n % 2 ^ 52
  if e = 2047 then if f = 0 then .infinite negative else .nan
  else if e = 0 then .finite negative ⟨f, -1074, false⟩
  else .finite negative ⟨2 ^ 52 + f, Int.ofNat e - 1075, f = 0 ∧ 1 < e⟩

def binaryScale (e : Int) : Nat × Nat :=
  if 0 ≤ e then (2 ^ e.toNat, 1) else (1, 2 ^ (-e).toNat)

def decimalScale (e : Int) : Nat × Nat :=
  if 0 ≤ e then (10 ^ e.toNat, 1) else (1, 10 ^ (-e).toNat)

/-! ## fixed places -/

/-- the quotient rounded to the nearest integer, a half to the even neighbour -/
def roundDiv (num den : Nat) : Nat :=
  let q := num / den
  let r := num % den
  if 2 * r < den then q else if den < 2 * r then q + 1 else if q % 2 = 0 then q else q + 1

/-- the decimal digits of a number, at least `width` of them -/
def padded (width n : Nat) : List Char :=
  let ds := Nat.toDigits 10 n
  List.replicate (width - ds.length) '0' ++ ds

/-- the text of a double with `places` digits behind the point -/
def fixed (places : Nat) (x : Float) : String :=
  match kindOf x.toBits with
  | .nan => "NaN"
  | .infinite negative => if negative then "-inf" else "inf"
  | .finite negative m =>
    let s := binaryScale m.exponent
    let n := roundDiv (m.mantissa * s.1 * 10 ^ places) s.2
    String.ofList <|
      (if negative then ['-'] else []) ++ Nat.toDigits 10 (n / 10 ^ places) ++ '.'
        :: padded places (n % 10 ^ places)

/-! ## fewest digits -/

/-- the places by which a fraction below one has to be moved to reach one -/
def leadingPlaces (num den : Nat) : Nat → Nat
  | 0 => 0
  | k + 1 => if den ≤ num then 0 else leadingPlaces (num * 10) den k + 1

/-- the exponent of the first decimal digit of a fraction above zero -/
def decimalExponent (num den : Nat) : Int :=
  if den ≤ num then Int.ofNat (Nat.toDigits 10 (num / den)).length - 1
  else - Int.ofNat (leadingPlaces num den 400)

/-- whether a decimal reads back as the magnitude: it lies between the two midpoints, where a
midpoint itself counts for an even mantissa -/
def readsBack (m : Magnitude) (digits : Nat) (place : Int) : Bool :=
  let b := binaryScale (m.exponent - 2)
  let d := decimalScale place
  let x := digits * d.1 * b.2
  let unit := b.1 * d.2
  let low := (4 * m.mantissa - if m.tight then 1 else 2) * unit
  let high := (4 * m.mantissa + 2) * unit
  if m.mantissa % 2 = 0 then low ≤ x && x ≤ high else low < x && x < high

/-- the neighbours of the magnitude on the grid of `10 ^ place`: the integer below, and whether
the one above is nearer -/
def onGrid (m : Magnitude) (place : Int) : Nat × Bool :=
  let b := binaryScale m.exponent
  let d := decimalScale place
  let num := m.mantissa * b.1 * d.2
  let den := b.2 * d.1
  let q := num / den
  let r := num % den
  (q, den < 2 * r || (den == 2 * r && q % 2 == 1))

/-- tries grids from `place` on downwards, `fuel` of them -/
def searchGrid (m : Magnitude) (place : Int) : Nat → Nat × Int
  | 0 => ((onGrid m place).1, place)
  | fuel + 1 =>
    let (below, up) := onGrid m place
    let first := if up then below + 1 else below
    let second := if up then below else below + 1
    if readsBack m first place then (first, place)
    else if readsBack m second place then (second, place)
    else searchGrid m (place - 1) fuel

def dropZeros (digits : Nat) (place : Int) : Nat → Nat × Int
  | 0 => (digits, place)
  | fuel + 1 =>
    if digits ≠ 0 ∧ digits % 10 = 0 then dropZeros (digits / 10) (place + 1) fuel
    else (digits, place)

/-- the shortest decimal `digits · 10 ^ place` that reads back as a magnitude above zero -/
def shortest (m : Magnitude) : Nat × Int :=
  let b := binaryScale m.exponent
  let r := searchGrid m (decimalExponent (m.mantissa * b.1) b.2) 17
  dropZeros r.1 r.2 20

end HeaderMiner.Double
