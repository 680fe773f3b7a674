import HeaderMiner.Text.Mark
/-!
# Domains that are written in two directions

As soon as a domain has a letter that is written from right to left, each of its labels has to have a
direction of its own and keep to it, so that a label shows in one way only whatever stands around
it.  The tables are those of Unicode 17 for the characters a host can have.
-/

namespace HeaderMiner.Url.Domain

/-- what a character means for the direction of a text -/
inductive Direction where
  | leftToRight
  | rightToLeft
  /-- letters of Arabic and of scripts like it -/
  | arabicLetter
  | arabicNumber
  | number
  /-- signs and marks between and behind numbers -/
  | separator
  /-- characters that take the direction of what stands around them, or none -/
  | neutral
  /-- marks that take the direction of the character before them -/
  | mark
deriving DecidableEq, Repr

def rightToLeftLetters : List Text.Row :=
  Text.Row.ofText "5be-5f4 7c0-7f5 7fa-85e 10800-1091b 10920-10b35 10b40-10cff 10d40-10d8f 10e80-10eb1
   10f00-10f27 10f70-10ff6 1e800-1e95f"

/-- letters of Arabic and of scripts like it -/
def arabicLetters : List Text.Row :=
  Text.Row.ofText "608 60b 60d 61b-64a 66d-6d5 6e5-6e6 6ee-6ef 6fa-7b1 860-8c9 fbb2-fbd2 fd90-fdce fe73
   10d00-10d23 10ec2-10ed8 10f30-10f59 1ec71-1ed3d"

def arabicNumbers : List Text.Row :=
  Text.Row.ofText "660-669 66b-66c 10d30-10d39 10e60-10e7e"

/-- other numbers whose digits run from left to right everywhere -/
def numbers : List Text.Row :=
  Text.Row.ofText "30-39 6f0-6f9 102e1-102fb"

/-- signs and marks between and behind numbers -/
def separators : List Text.Row :=
  Text.Row.ofText "24 2b 2c 2d 2e a2-a5 b0-b1 58f 609-60a 60c 66a 9f2-9f3 9fb af1 bf9 e3f 17db 2030-2032 2044
   20a0-20c1 212e 2212 2213 a838-a839 11fdd-11fe0 1e2ff"

/-- characters without a direction of their own -/
def neutrals : List Text.Row :=
  Text.Row.ofText "21-22 26-2a 3b-60 7b-a1 a6-ae b6-d7 f7 2b9-2ba 2c2-2cf 2d2-2ed 2ef-2ff 375 3f6 58a-58e 606-607
   60e-60f 6de 6e9 7f6-7f9 bf3-bf8 bfa c78-c7e f3a-f3d 1390-1399 1400 169b-169c 17f0-180a
   1940-1945 19de-19ff 200c-200d 2010-2027 2035-2043 2045-205e 2104-2129 213a-214d 218a-2211
   2214-2335 237b-2394 2396-2426 2440-26ab 26ad-27ff 2900-2b95 2b97-2bff 2ce5-2cea 2cf9-2cff
   2e00-3004 3008-3020 3030 3037 303d-303f 30a0 30fb 31c0-31e3 4dc0-4dff a490-a4c6 a60d-a60f
   a673-a67f a700-a721 a788 a828-a82b a874-a877 ab6a-ab6b fd3e-fd4f fdcf-fe46 10101 10140-1018c
   10190-101a0 1091f 10b39-10b3f 11052-11065 11660-1166c 11fd5-11fdc 11fe1-11ff1 16fe2
   1d1e9-1d245 1d300-1d356 1eef0-1f12f 1f16d-1f16f 1f1ad 1f260-1f6d7 1f6dc-1f776 1f77b-1f8b1
   1f900-1fa53 1fa60-1fa88 1fa90-1fabd 1fabf-1fac5 1face-1fadb 1fae0-1fae8 1faf0-1fbca"

/-- marks that count as letters written from left to right -/
def lettersAmongMarks : List Text.Row := Text.Row.ofText "cbf cc6 11a07-11a08 11c3f"

def directionOf (n : Nat) : Direction :=
  if Text.isNonspacing n then
    if Text.Row.contains lettersAmongMarks n then .leftToRight else .mark
  else if Text.Row.contains rightToLeftLetters n then .rightToLeft
  else if Text.Row.contains arabicLetters n then .arabicLetter
  else if Text.Row.contains arabicNumbers n then .arabicNumber
  else if Text.Row.contains numbers n then .number
  else if Text.Row.contains separators n then .separator
  else if Text.Row.contains neutrals n then .neutral
  else .leftToRight

/-- the directions that make a domain one of two directions -/
def Direction.turns : Direction → Bool
  | .rightToLeft | .arabicLetter | .arabicNumber => true
  | _ => false

/-- whether a label that is written from left to right keeps to it -/
def keepsLeftToRight (ds : List Direction) : Bool :=
  ds.all (fun d => !d.turns) &&
    match (ds.reverse.dropWhile (· = .mark)).head? with
    | some .leftToRight | some .number => true
    | _ => false

/-- whether a label that is written from right to left keeps to it, with numbers of one kind only -/
def keepsRightToLeft (ds : List Direction) : Bool :=
  ds.all (· ≠ .leftToRight) && !(ds.contains .number && ds.contains .arabicNumber) &&
    match (ds.reverse.dropWhile (· = .mark)).head? with
    | some .rightToLeft | some .arabicLetter | some .number | some .arabicNumber => true
    | _ => false

/-- whether a label has a direction and keeps to it -/
def keepsDirection (label : List Nat) : Bool :=
  let ds := label.map directionOf
  match ds.head? with
  | none => true
  | some .leftToRight => keepsLeftToRight ds
  | some .rightToLeft | some .arabicLetter => keepsRightToLeft ds
  | some _ => false

/-- whether a domain may be shown in the directions that it has -/
def keepsDirections (labels : List (List Nat)) : Bool :=
  !(labels.any fun l => l.any fun n => 0x80 ≤ n && (directionOf n).turns)
    || labels.all keepsDirection

end HeaderMiner.Url.Domain
