import HeaderMiner.Json.Value
import HeaderMiner.Double
/-!
# JSON numbers

Reading keeps up to 64 bits of a number's digits and counts the places of the digits left out, so
a long number is the double nearest to the kept digits, times or over a power of ten.  An integer
that fits 64 bits stays an integer; minus zero is a double.  A number too large for a double is no
number.

Writing a double gives the shortest digits that read back, positional from `0.00001` up to 16
digits before the point, always with a point, and otherwise one digit before the point and a
signed exponent.
-/

namespace HeaderMiner.Json

/-! ## reading -/

def isDigit (c : Char) : Bool := '0' ≤ c && c ≤ '9'

/-- the exclusive bound of kept digits -/
def wordBound : Nat := 2 ^ 64

/-- takes digits into `kept` while it stays below the bound: the number kept, and the digits left
out -/
def keepDigits (kept : Nat) : List Char → Nat × List Char
  | [] => (kept, [])
  | c :: cs =>
    let n := kept * 10 + (c.toNat - 48)
    if n < wordBound then keepDigits n cs else (kept, c :: cs)

/-- `f · 10 ^ (-e)`, in steps that a double can hold -/
def shrink (f : Float) (e : Nat) : Float :=
  if e ≤ 308 then f / Float.ofNat (10 ^ e)
  else if f == 0 then f
  else shrink (f / Float.ofNat (10 ^ 308)) (e - 308)
termination_by e

/-- the double of kept digits and a decimal exponent, unless it is too large -/
def scaled? (kept : Nat) (exponent : Int) : Option Float :=
  let f := (UInt64.ofNat kept).toFloat
  if exponent < 0 then some (shrink f exponent.natAbs)
  else if exponent ≤ 308 then
    let g := f * Float.ofNat (10 ^ exponent.toNat)
    if g.isInf then none else some g
  else if f == 0 then some f else none

/-- a number as it is spelled, its minus sign apart -/
structure Literal where
  /-- the digits before the point -/
  whole : List Char
  /-- the digits behind the point, if there is one -/
  fraction : Option (List Char)
  /-- the digits of the exponent, if there is one, and whether it is below zero -/
  exponent : Option (Bool × List Char)

/-- reads the part behind the point, where there is one -/
def fractionPart : List Char → Option (Option (List Char) × List Char)
  | '.' :: r =>
    let ds := r.takeWhile isDigit
    if ds.isEmpty then none else some (some ds, r.dropWhile isDigit)
  | cs => some (none, cs)

def exponentPart : List Char → Option (Option (Bool × List Char) × List Char)
  | [] => some (none, [])
  | c :: r =>
    if c = 'e' ∨ c = 'E' then
      let (below, r) :=
        match r with
        | '-' :: r => (true, r)
        | '+' :: r => (false, r)
        | r => (false, r)
      let ds := r.takeWhile isDigit
      if ds.isEmpty then none else some (some (below, ds), r.dropWhile isDigit)
    else some (none, c :: r)

/-- reads the longest number without a sign; a zero in front of other digits is none -/
def literal (cs : List Char) : Option (Literal × List Char) := do
  let whole := cs.takeWhile isDigit
  if whole.isEmpty ∨ (whole.head? = some '0' ∧ 1 < whole.length) then none
  else
    let (fraction, r) ← fractionPart (cs.dropWhile isDigit)
    let (exponent, r) ← exponentPart r
    return (⟨whole, fraction, exponent⟩, r)

/-- digits as a number, `none` from `2 ^ 31` on -/
def exponentOf? (ds : List Char) : Option Nat :=
  ds.foldl (fun acc c => acc.bind fun n =>
    let m := n * 10 + (c.toNat - 48)
    if m < 2 ^ 31 then some m else none) (some 0)

def integer (positive : Bool) (n : Nat) : Json :=
  if positive then .natural n
  else if n = 0 ∨ 2 ^ 63 < n then .double (-(UInt64.ofNat n).toFloat)
  else .negative (-Int.ofNat n)

/-- the double of kept digits and their exponent, under an exponent that is spelled out -/
def scaledBy? (kept : Nat) (place : Int) : Option (Bool × List Char) → Option Float
  | none => scaled? kept place
  | some (below, ds) =>
    match exponentOf? ds with
    | some e => scaled? kept (if below then place - e else place + e)
    | none => if kept ≠ 0 ∧ !below then none else some 0

/-- the number of a literal, unless it is too large -/
def Literal.value? (positive : Bool) (l : Literal) : Option Json :=
  let (kept, left) := keepDigits 0 l.whole
  let double (kept : Nat) (place : Int) : Option Json :=
    (scaledBy? kept place l.exponent).map fun f => .double (if positive then f else -f)
  match l.fraction with
  | some ds =>
    let (kept, unread) := keepDigits kept ds
    double kept (Int.ofNat left.length - Int.ofNat (ds.length - unread.length))
  | none =>
    if left.isEmpty ∧ l.exponent.isNone then some (integer positive kept)
    else double kept (Int.ofNat left.length)

/-! ## writing -/

/-- digits with the point after the first `k` of them, filled up by zeros on either side -/
def positional (ds : List Char) (k : Int) : List Char :=
  if k ≤ 0 then '0' :: '.' :: List.replicate k.natAbs '0' ++ ds
  else if ds.length ≤ k.toNat then ds ++ List.replicate (k.toNat - ds.length) '0' ++ ['.', '0']
  else ds.take k.toNat ++ '.' :: ds.drop k.toNat

/-- digits with the point after the first, and a signed exponent -/
def scientific (ds : List Char) (e : Int) : List Char :=
  let tail := ds.drop 1
  ds.take 1 ++ (if tail.isEmpty then [] else '.' :: tail) ++ 'e' :: (if e < 0 then '-' else '+')
    :: Nat.toDigits 10 e.natAbs

def doubleText (x : Float) : String :=
  match Double.kindOf x.toBits with
  | .finite minus m =>
    let body :=
      if m.mantissa = 0 then ['0', '.', '0']
      else
        let (digits, place) := Double.shortest m
        let ds := Nat.toDigits 10 digits
        let point := Int.ofNat ds.length + place
        if -5 < point ∧ point ≤ 16 then positional ds point else scientific ds (point - 1)
    String.ofList ((if minus then ['-'] else []) ++ body)
  | _ => "null"

end HeaderMiner.Json
