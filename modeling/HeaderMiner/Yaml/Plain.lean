import HeaderMiner.Power
import HeaderMiner.Yaml.Node
/-!
# The meaning of plain scalars

A plain scalar may be null, a truth value or a number by its spelling alone.  A number may have a
sign and may be written in base 2, 8 or 16 behind a mark; in base 10 a zero in front of other digits
makes it a text.
-/

namespace HeaderMiner.Yaml.Plain

def isNull (s : String) : Bool := s == "null" || s == "Null" || s == "NULL" || s == "~"

def bool? (s : String) : Option Bool :=
  if s = "true" ∨ s = "True" ∨ s = "TRUE" then some true
  else if s = "false" ∨ s = "False" ∨ s = "FALSE" then some false
  else none

/-- the value of digits in a base, `none` without any -/
def digits? (base : Nat) (cs : List Char) : Option Nat :=
  if cs.isEmpty then none else Text.digits? base cs

def isSign (c : Char) : Bool := c = '+' || c = '-'

def unsigned : List Char → List Char
  | c :: r => if isSign c then r else c :: r
  | [] => []

/-- digits with a zero in front of others -/
def isPadded (cs : List Char) : Bool :=
  match unsigned cs with
  | '0' :: r => !r.isEmpty && r.all Char.isDigit
  | _ => false

/-- the digits behind the mark of a base -/
def marked? : List Char → Option (Nat × List Char)
  | '0' :: 'x' :: r => some (16, r)
  | '0' :: 'o' :: r => some (8, r)
  | '0' :: 'b' :: r => some (2, r)
  | _ => none

def natural? (cs : List Char) : Option Nat :=
  let body := match cs with
    | '+' :: r => r
    | _ => cs
  match (marked? body).bind fun (base, r) => digits? base r with
  | some n => some n
  | none => if body.head?.any isSign || isPadded cs then none else digits? 10 body

def bounded? (bound : Nat) (s : String) : Option Nat :=
  match natural? s.toList with
  | some n => if n < bound then some n else none
  | none => none

/-- whether a text is spelled like an integer of up to 128 bits -/
def isInteger (cs : List Char) : Bool :=
  match natural? cs with
  | some n => n < 2 ^ 128
  | none =>
    match cs with
    | '-' :: r =>
      match (marked? r).bind fun (base, r) => digits? base r with
      | some n => n ≤ 2 ^ 127
      | none => !isPadded cs && (digits? 10 r).any (· ≤ 2 ^ 127)
    | _ => false

/-- the exponent of a decimal number, zero where there is none -/
def exponent? : List Char → Option Int
  | [] => some 0
  | c :: r =>
    if c = 'e' ∨ c = 'E' then
      (digits? 10 (unsigned r)).map fun n => if r.head? = some '-' then -Int.ofNat n else Int.ofNat n
    else none

/-- the parts of a decimal number: its digits and the power of ten of the last one -/
def decimal? (cs : List Char) : Option (Nat × Int) := do
  let body := unsigned cs
  let whole := body.takeWhile Char.isDigit
  let r := body.dropWhile Char.isDigit
  let (fraction, r) := match r with
    | '.' :: r => (r.takeWhile Char.isDigit, r.dropWhile Char.isDigit)
    | r => ([], r)
  let n ← digits? 10 (whole ++ fraction)
  return (n, (← exponent? r) - Int.ofNat fraction.length)

/-- whether `n · 10 ^ e` rounds to a finite double -/
def isFinite (n : Nat) (e : Int) : Bool :=
  let limit := 2 ^ 1024 - 2 ^ 970
  if n = 0 then true
  else
    let places := Int.ofNat (Nat.toDigits 10 n).length + e
    if places < 309 then true
    else if 310 < places then false
    else if e < 0 then n < limit * 10 ^ e.natAbs
    else n * 10 ^ e.toNat < limit

/-- whether a text is spelled like a double -/
def isDouble (cs : List Char) : Bool :=
  let s := String.ofList cs
  let body := match cs with
    | '+' :: r => r
    | _ => cs
  [".inf", ".Inf", ".INF"].contains (String.ofList body)
    || ["-.inf", "-.Inf", "-.INF", ".nan", ".NaN", ".NAN"].contains s
    || (!(cs.head? == some '+' && body.head?.any isSign)
        && (decimal? body).any fun (n, e) => isFinite n e)

/-- whether a text, written plain, would be read as something else -/
def isTyped (s : String) : Bool :=
  s.isEmpty || isNull s || (bool? s).isSome || isInteger s.toList
    || (!isPadded s.toList && isDouble s.toList)

end HeaderMiner.Yaml.Plain
