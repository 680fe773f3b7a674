/-!
# Places in a YAML text

The character classes of YAML 1.1, a cursor that counts lines and columns, and gaps: the blanks and
line breaks between two pieces of text, which a scalar folds.
-/

namespace HeaderMiner.Yaml

/-! ## characters -/

/-- the characters that a text may hold -/
def isAllowed (c : Char) : Bool :=
  let n := c.toNat
  n = 9 || n = 10 || n = 13 || (0x20 ≤ n && n ≤ 0x7e) || n = 0x85 || (0xa0 ≤ n && n ≤ 0xd7ff)
    || (0xe000 ≤ n && n ≤ 0xfffd) || 0x10000 ≤ n

def isBlank (c : Char) : Bool := c = ' ' || c = '\t'

/-- the characters that end a line -/
def isBreak (c : Char) : Bool :=
  c = '\r' || c = '\n' || c = '\u0085' || c = '\u2028' || c = '\u2029'

def isGap (c : Char) : Bool := isBlank c || isBreak c

/-- the characters of names -/
def isWord (c : Char) : Bool := c.isAlphanum || c = '_' || c = '-'

/-- a line break as a scalar keeps it: only the two separators of Unicode stay themselves -/
def normalBreak (c : Char) : Char := if c = '\u2028' || c = '\u2029' then c else '\n'

/-- the brackets and the comma of flow collections -/
def isFlowMark (c : Char) : Bool :=
  c = ',' || c = '[' || c = ']' || c = '\x7b' || c = '\x7d'

/-- whether a text goes on with a gap, or ends -/
def startsGap : List Char → Bool
  | [] => true
  | c :: _ => isGap c

/-- whether a text goes on with a marker of the start or the end of a document -/
def startsMarker : List Char → Bool
  | '-' :: '-' :: '-' :: r => startsGap r
  | '.' :: '.' :: '.' :: r => startsGap r
  | _ => false

/-! ## the cursor -/

/-- a place in a text, with the text from there on -/
structure Cursor where
  rest : List Char
  index : Nat := 0
  line : Nat := 0
  column : Nat := 0

namespace Cursor

/-- moves to a later part of the same line -/
def moveTo (c : Cursor) (rest : List Char) : Cursor :=
  let n := c.rest.length - rest.length
  { c with rest, index := c.index + n, column := c.column + n }

def skip (c : Cursor) (n : Nat) : Cursor := c.moveTo (c.rest.drop n)

/-- moves over characters of the same line as long as they pass a test -/
def skipWhile (c : Cursor) (p : Char → Bool) : Cursor := c.moveTo (c.rest.dropWhile p)

/-- moves over one line break, if the text goes on with one -/
def skipBreak (c : Cursor) : Cursor :=
  match c.rest with
  | '\r' :: '\n' :: r => ⟨r, c.index + 2, c.line + 1, 0⟩
  | ch :: r => if isBreak ch then ⟨r, c.index + 1, c.line + 1, 0⟩ else c
  | [] => c

/-- whether a marker of a document stands here -/
def atMarker (c : Cursor) : Bool := c.column == 0 && startsMarker c.rest

/-- moves over blanks and a comment to the end of a line, if nothing else stands there -/
def endLine? (c : Cursor) : Option Cursor :=
  let c := c.skipWhile isBlank
  let c := if c.rest.head? = some '#' then c.skipWhile fun ch => !isBreak ch else c
  match c.rest with
  | [] => some c
  | ch :: _ => if isBreak ch then some c.skipBreak else none

end Cursor

/-! ## gaps -/

/-- blanks and line breaks between two pieces of text -/
structure Gap where
  /-- the blanks in front of the first line break -/
  blanks : List Char := []
  /-- the line breaks -/
  breaks : List Char := []
  /-- the least column of a tab behind a line break -/
  tabColumn : Option Nat := none

namespace Gap

/-- what a scalar keeps of a gap: a single break becomes a space, and of several the first is
dropped -/
def folded (g : Gap) : List Char :=
  match g.breaks with
  | [] => g.blanks
  | ['\n'] => [' ']
  | '\n' :: more => more
  | breaks => breaks

def addBlank (g : Gap) (column : Nat) (c : Char) : Gap :=
  if g.breaks.isEmpty then { g with blanks := g.blanks ++ [c] }
  else if c = '\t' then { g with tabColumn := some (min column (g.tabColumn.getD column)) }
  else g

def addBreak (g : Gap) (c : Char) : Gap := { g with breaks := g.breaks ++ [normalBreak c] }

def takeFrom (g : Gap) (index line column : Nat) : List Char → Gap × Cursor
  | '\r' :: '\n' :: r => takeFrom (g.addBreak '\n') (index + 2) (line + 1) 0 r
  | c :: r =>
    if isBlank c then takeFrom (g.addBlank column c) (index + 1) line (column + 1) r
    else if isBreak c then takeFrom (g.addBreak c) (index + 1) (line + 1) 0 r
    else (g, ⟨c :: r, index, line, column⟩)
  | [] => (g, ⟨[], index, line, column⟩)

def take (c : Cursor) : Gap × Cursor := takeFrom {} c.index c.line c.column c.rest

end Gap

end HeaderMiner.Yaml
