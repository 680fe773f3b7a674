import HeaderMiner.Power
import HeaderMiner.Url.Percent
/-!
# Addresses as hosts

A host that ends in a number is an IPv4 address: up to four numbers in base 8, 10 or 16, of which the
last fills all the bytes left.  A host in brackets is an IPv6 address: eight 16-bit pieces in base 16,
where a double colon stands for zeros.
-/

namespace HeaderMiner.Url

/-! ## IPv4 -/

/-- a number of an address; a mark without digits is zero -/
def number? : List Char → Option Nat
  | [] => none
  | '0' :: 'x' :: r | '0' :: 'X' :: r => Text.digits? 16 r
  | ['0'] => some 0
  | '0' :: r => Text.digits? 8 r
  | cs => Text.digits? 10 cs

/-- the parts of a host, without the empty one behind a last point -/
def parts (cs : List Char) : List (List Char) :=
  let ps := Text.splitAt '.' cs
  match ps.reverse with
  | [] :: rest => rest.reverse
  | _ => ps

/-- whether a host ends in a number, and so must be an address -/
def endsInNumber (cs : List Char) : Bool :=
  match (parts cs).getLast? with
  | none => false
  | some p => (!p.isEmpty && p.all Char.isDigit) || (number? p).isSome

def ipv4? (cs : List Char) : Option Nat := do
  let ps := parts cs
  if 4 < ps.length then none
  else
    let ns ← ps.mapM number?
    let last ← ns.getLast?
    let front := ns.dropLast
    if 256 ^ (4 - front.length) ≤ last ∨ front.any (255 < ·) then none
    else
      let head := front.foldl (fun n k => n * 256 + k) 0
      some (head * 256 ^ (4 - front.length) + last)

def ipv4Text (n : Nat) : String :=
  String.intercalate "." <|
    [n / 256 ^ 3 % 256, n / 256 ^ 2 % 256, n / 256 % 256, n % 256].map toString

/-! ## IPv6 -/

/-- what is read of an address: the pieces in front of the double colon and those behind it -/
structure Pieces where
  front : List Nat := []
  behind : Option (List Nat) := none

namespace Pieces

def count (p : Pieces) : Nat := p.front.length + (p.behind.map List.length).getD 0

def add (p : Pieces) (n : Nat) : Pieces :=
  match p.behind with
  | none => { p with front := p.front ++ [n] }
  | some b => { p with behind := some (b ++ [n]) }

/-- the eight pieces of an address -/
def all? (p : Pieces) : Option (List Nat) :=
  match p.behind with
  | none => if p.front.length = 8 then some p.front else none
  | some b =>
    if p.count < 8 then some (p.front ++ List.replicate (8 - p.count) 0 ++ b) else none

end Pieces

/-- a byte in decimal digits, without a zero in front of others -/
def byte? (cs : List Char) : Option Nat :=
  if cs.isEmpty || (1 < cs.length && cs.head? == some '0') then none
  else (Text.digits? 10 cs).bind fun n => if n ≤ 255 then some n else none

/-- takes the pieces of an address; `fuel` bounds their number -/
def piecesFrom : Nat → Pieces → List Char → Option Pieces
  | 0, _, _ => none
  | _ + 1, p, [] => some p
  | fuel + 1, p, cs =>
    if p.count = 8 then none
    else
      match cs with
      | ':' :: r =>
        if p.behind.isSome then none else piecesFrom fuel { p with behind := some [] } r
      | cs =>
        let ds := (cs.take 4).takeWhile fun c => (Text.hexValue? c).isSome
        let r := cs.drop ds.length
        match r with
        | '.' :: _ =>
          if ds.isEmpty || 6 < p.count then none
          else do
            let bs ← (Text.splitAt '.' cs).mapM byte?
            match bs with
            | [a, b, c, d] => some ((p.add (a * 256 + b)).add (c * 256 + d))
            | _ => none
        | ':' :: c :: r => (Text.digits? 16 ds).bind fun n => piecesFrom fuel (p.add n) (c :: r)
        | [] => (Text.digits? 16 ds).map p.add
        | _ => none

/-- the address of a text between brackets -/
def ipv6? (cs : List Char) : Option (List Nat) :=
  match cs with
  | ':' :: ':' :: r => (piecesFrom 9 { behind := some [] } r).bind Pieces.all?
  | ':' :: _ => none
  | _ => (piecesFrom 9 {} cs).bind Pieces.all?

def zeros (ps : List Nat) : Nat := (ps.takeWhile (· = 0)).length

/-- the start and the length of the longest run of zeros, the first of several -/
def longestRun (start : Nat) (best : Nat × Nat) : List Nat → Nat × Nat
  | [] => best
  | p :: ps =>
    let n := zeros (p :: ps)
    longestRun (start + 1) (if best.2 < n then (start, n) else best) ps

def piecesText (ps : List Nat) : String :=
  String.intercalate ":" (ps.map fun p => String.ofList (Nat.toDigits 16 p))

/-- an address, with a double colon in place of its longest run of two or more zeros -/
def ipv6Text (ps : List Nat) : String :=
  let (start, n) := longestRun 0 (0, 0) ps
  if n < 2 then piecesText ps
  else piecesText (ps.take start) ++ "::" ++ piecesText (ps.drop (start + n))

end HeaderMiner.Url
