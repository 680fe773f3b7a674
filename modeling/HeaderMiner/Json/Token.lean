import HeaderMiner.Json.Number
import HeaderMiner.Text.Pieces
/-!
# JSON tokens

A JSON text is a sequence of punctuation marks and scalars between blanks.  A string holds no
control character, and its escapes name characters, by two escapes of UTF-16 units where one is not
enough.  A scalar may be well spelled and still have no value: half of such a pair, or a number too
large for a double.
-/

namespace HeaderMiner.Json

inductive Token where
  | openArray
  | closeArray
  | openObject
  | closeObject
  | comma
  | colon
  /-- a scalar, with its value if it has one -/
  | scalar (v : Option Json)

/-! ## strings -/

/-- the UTF-16 unit of four digits -/
def unit? (a b c d : Char) : Option Nat :=
  Text.digits? 16 [a, b, c, d]

def escape? : Char → Option Char
  | '"' => some '"'
  | '\\' => some '\\'
  | '/' => some '/'
  | 'b' => some '\x08'
  | 'f' => some '\x0c'
  | 'n' => some '\n'
  | 'r' => some '\r'
  | 't' => some '\t'
  | _ => none

def isHighSurrogate (u : Nat) : Bool := 0xd800 ≤ u && u ≤ 0xdbff
def isLowSurrogate (u : Nat) : Bool := 0xdc00 ≤ u && u ≤ 0xdfff

/-- a part of a string: a character, or a UTF-16 unit that an escape names -/
inductive Piece where
  | char (c : Char)
  | unit (u : Nat)

/-- reads a string behind its opening quote: its pieces, and the text behind its closing quote -/
def stringBody : List Char → Option (List Piece × List Char)
  | [] => none
  | '"' :: rest => some ([], rest)
  | '\\' :: 'u' :: a :: b :: c :: d :: rest => do
    let u ← unit? a b c d
    let (ps, r) ← stringBody rest
    return (.unit u :: ps, r)
  | '\\' :: c :: rest => do
    let x ← escape? c
    let (ps, r) ← stringBody rest
    return (.char x :: ps, r)
  | c :: rest =>
    if c.toNat < 0x20 ∨ c = '\\' then none
    else (stringBody rest).map fun p => (.char c :: p.1, p.2)

/-- the characters of a string, unless it holds half of a pair of units -/
def Piece.chars? : List Piece → Option (List Char)
  | [] => some []
  | .char c :: ps => (chars? ps).map (c :: ·)
  | .unit u :: .unit v :: ps =>
    if isHighSurrogate u then
      if isLowSurrogate v then
        (chars? ps).map (Char.ofNat (0x10000 + (u - 0xd800) * 1024 + (v - 0xdc00)) :: ·)
      else none
    else if isLowSurrogate u then none
    else (chars? (.unit v :: ps)).map (Char.ofNat u :: ·)
  | .unit u :: ps =>
    if isHighSurrogate u || isLowSurrogate u then none
    else (chars? ps).map (Char.ofNat u :: ·)

def stringOf? (ps : List Piece) : Option Json :=
  (Piece.chars? ps).map fun cs => .string (String.ofList cs)

/-! ## texts -/

def isSpace (c : Char) : Bool := c = ' ' || c = '\n' || c = '\t' || c = '\r'

/-- the first token of a text that does not start with a blank -/
def token (c : Char) (rest : List Char) : Option (Token × List Char) :=
  match c with
  | '[' => some (.openArray, rest)
  | ']' => some (.closeArray, rest)
  | '\x7b' => some (.openObject, rest)
  | '\x7d' => some (.closeObject, rest)
  | ',' => some (.comma, rest)
  | ':' => some (.colon, rest)
  | '"' => (stringBody rest).map fun p => (.scalar (stringOf? p.1), p.2)
  | '-' => (literal rest).map fun p => (.scalar (p.1.value? false), p.2)
  | 'n' => match rest with
    | 'u' :: 'l' :: 'l' :: r => some (.scalar (some .null), r)
    | _ => none
  | 't' => match rest with
    | 'r' :: 'u' :: 'e' :: r => some (.scalar (some (.bool true)), r)
    | _ => none
  | 'f' => match rest with
    | 'a' :: 'l' :: 's' :: 'e' :: r => some (.scalar (some (.bool false)), r)
    | _ => none
  | c => if isDigit c then (literal (c :: rest)).map fun p => (.scalar (p.1.value? true), p.2) else none

/-- the tokens of a text; `fuel` bounds their number, and the length of the text is enough -/
def tokensWithin : Nat → List Char → Option (List Token)
  | 0, cs => if cs.all isSpace then some [] else none
  | fuel + 1, cs =>
    match cs.dropWhile isSpace with
    | [] => some []
    | c :: rest => do
      let (t, r) ← token c rest
      return t :: (← tokensWithin fuel r)

def tokens (cs : List Char) : Option (List Token) := tokensWithin cs.length cs

end HeaderMiner.Json
