import HeaderMiner.Text.Pieces
import HeaderMiner.Yaml.Cursor
/-!
# Scalars

The five ways to write a scalar: plain, in quotes of either kind, and as a block of lines that is
kept (literal) or folded.  A plain or quoted scalar is a sequence of pieces with gaps between them,
and each gap is folded.
-/

namespace HeaderMiner.Yaml

inductive Style where
  | plain
  | singleQuoted
  | doubleQuoted
  | literal
  | folded
deriving DecidableEq, Repr

namespace Scalar

/-! ## plain scalars -/

/-- takes the longest piece of a plain scalar; inside a flow collection a colon in front of one of
its marks is refused -/
def plainPiece (flow : Bool) : List Char → Option (List Char × List Char)
  | [] => some ([], [])
  | c :: r =>
    if isGap c then some ([], c :: r)
    else if c = ':' ∧ startsGap r then some ([], c :: r)
    else if flow ∧ c = ':' ∧ r.head?.any fun d => isFlowMark d || d = '?' then none
    else if flow ∧ isFlowMark c then some ([], c :: r)
    else (plainPiece flow r).map fun p => (c :: p.1, p.2)

/-- takes a plain scalar behind the text already read and a gap: the text, the place behind it,
and whether the gap at its end has a line break.  `fuel` bounds the number of pieces. -/
def plainFrom (flow : Bool) (indent : Nat) :
    Nat → List Char → Gap → Cursor → Option (List Char × Cursor × Bool)
  | 0, _, _, _ => none
  | fuel + 1, done, gap, c =>
    let stop := some (done, c, !gap.breaks.isEmpty)
    if c.atMarker || c.rest.head? == some '#' then stop
    else
      match plainPiece flow c.rest with
      | none => none
      | some ([], _) => stop
      | some (piece, rest) =>
        let done := done ++ gap.folded ++ piece
        let (gap, c) := Gap.take (c.moveTo rest)
        if gap.blanks.isEmpty && gap.breaks.isEmpty then some (done, c, false)
        else if gap.tabColumn.any (· < indent) then none
        else if !flow && c.column < indent then some (done, c, !gap.breaks.isEmpty)
        else plainFrom flow indent fuel done gap c

/-- takes a plain scalar whose further lines stand at the column `indent` or behind it -/
def plain (flow : Bool) (indent : Nat) (c : Cursor) : Option (List Char × Cursor × Bool) :=
  plainFrom flow indent (c.rest.length + 1) [] {} c

/-! ## quoted scalars -/

/-- how a piece of a quoted scalar ends -/
inductive PieceEnd where
  | quote
  | gap
  /-- at a line break behind a backslash -/
  | escapedBreak

/-- the character that a hexadecimal number names -/
def codePoint? (ds : List Char) : Option Char := do
  let n ← Text.digits? 16 ds
  if n.isValidChar then some (Char.ofNat n) else none

/-- the characters of the one-letter escapes -/
def escape? : Char → Option Char
  | '0' => some '\x00'
  | 'a' => some '\x07'
  | 'b' => some '\x08'
  | 't' => some '\t'
  | '\t' => some '\t'
  | 'n' => some '\n'
  | 'v' => some '\x0b'
  | 'f' => some '\x0c'
  | 'r' => some '\r'
  | 'e' => some '\x1b'
  | ' ' => some ' '
  | '"' => some '"'
  | '/' => some '/'
  | '\\' => some '\\'
  | 'N' => some '\u0085'
  | '_' => some '\u00a0'
  | 'L' => some '\u2028'
  | 'P' => some '\u2029'
  | _ => none

/-- takes a piece of a scalar in single quotes, where a quote is written twice -/
def singlePiece : List Char → Option (List Char × PieceEnd × List Char)
  | [] => some ([], .gap, [])
  | '\'' :: '\'' :: r => (singlePiece r).map fun p => ('\'' :: p.1, p.2)
  | '\'' :: r => some ([], .quote, r)
  | c :: r =>
    if isGap c then some ([], .gap, c :: r)
    else (singlePiece r).map fun p => (c :: p.1, p.2)

/-- takes a piece of a scalar in double quotes -/
def doublePiece : List Char → Option (List Char × PieceEnd × List Char)
  | [] => some ([], .gap, [])
  | '"' :: r => some ([], .quote, r)
  | '\\' :: 'x' :: a :: b :: r => do
    let c ← codePoint? [a, b]
    (doublePiece r).map fun p => (c :: p.1, p.2)
  | '\\' :: 'u' :: a :: b :: c :: d :: r => do
    let c ← codePoint? [a, b, c, d]
    (doublePiece r).map fun p => (c :: p.1, p.2)
  | '\\' :: 'U' :: a :: b :: c :: d :: e :: f :: g :: h :: r => do
    let c ← codePoint? [a, b, c, d, e, f, g, h]
    (doublePiece r).map fun p => (c :: p.1, p.2)
  | '\\' :: e :: r =>
    if isBreak e then some ([], .escapedBreak, e :: r)
    else do
      let c ← escape? e
      (doublePiece r).map fun p => (c :: p.1, p.2)
  | c :: r =>
    if isGap c then some ([], .gap, c :: r)
    else if c = '\\' then none
    else (doublePiece r).map fun p => (c :: p.1, p.2)

/-- takes a quoted scalar behind the text already read; `fuel` bounds the number of pieces -/
def quotedFrom (double : Bool) : Nat → List Char → Cursor → Option (List Char × Cursor)
  | 0, _, _ => none
  | fuel + 1, done, c =>
    if c.atMarker || c.rest.isEmpty then none
    else do
      let (piece, ending, rest) ← if double then doublePiece c.rest else singlePiece c.rest
      let done := done ++ piece
      let c := c.moveTo rest
      match ending with
      | .quote => some (done, c)
      | .gap =>
        let (gap, c) := Gap.take c
        quotedFrom double fuel (done ++ gap.folded) c
      | .escapedBreak =>
        let (gap, c) := Gap.take c.skipBreak
        quotedFrom double fuel (done ++ gap.breaks) c

def quoted (double : Bool) (c : Cursor) : Option (List Char × Cursor) :=
  quotedFrom double (c.rest.length + 1) [] c

/-! ## block scalars -/

/-- what becomes of the line breaks at the end of a block -/
inductive Chomp where
  | strip
  | clip
  | keep
deriving DecidableEq

def chomp? : Char → Option Chomp
  | '-' => some .strip
  | '+' => some .keep
  | _ => none

def increment? (c : Char) : Option Nat :=
  if '1' ≤ c ∧ c ≤ '9' then some (c.toNat - 48) else none

/-- the two marks behind the sign of a block, in either order -/
def blockHeader : List Char → Option (Chomp × Option Nat × List Char)
  | [] => some (.clip, none, [])
  | c :: r =>
    match chomp? c, increment? c with
    | some chomp, _ =>
      match r with
      | d :: r' =>
        match increment? d with
        | some n => some (chomp, some n, r')
        | none => if d = '0' then none else some (chomp, none, r)
      | [] => some (chomp, none, [])
    | none, some n =>
      match r with
      | d :: r' =>
        match chomp? d with
        | some chomp => some (chomp, some n, r')
        | none => some (.clip, some n, r)
      | [] => some (.clip, some n, [])
    | none, none => if c = '0' then none else some (.clip, none, c :: r)

/-- takes the empty lines in front of a line of a block and the spaces of its indentation, which is
known or still open: the breaks, the widest indentation met, and the place.  A tab in place of an
indentation is refused. -/
def emptyLines (indent : Option Nat) (widest : Nat) (breaks : List Char)
    (index line column : Nat) : List Char → Option (List Char × Nat × Cursor)
  | [] => some (breaks, max widest column, ⟨[], index, line, column⟩)
  | '\r' :: '\n' :: r =>
    emptyLines indent (max widest column) (breaks ++ ['\n']) (index + 2) (line + 1) 0 r
  | c :: r =>
    let inside := indent.all (column < ·)
    if c = ' ' ∧ inside then emptyLines indent widest breaks (index + 1) line (column + 1) r
    else if c = '\t' ∧ inside then none
    else if isBreak c then
      emptyLines indent (max widest column) (breaks ++ [normalBreak c]) (index + 1) (line + 1) 0 r
    else some (breaks, max widest column, ⟨c :: r, index, line, column⟩)

/-- the text of a block so far, with the break behind its last line and the empty lines behind
that -/
structure Block where
  text : List Char := []
  lineBreak : List Char := []
  emptyBreaks : List Char
  startsBlank : Bool := false

/-- adds a line: in a folded block the break between two lines that do not start with a blank
becomes a space -/
def Block.addLine (folded : Bool) (b : Block) (line : List Char) (lineBreak emptyBreaks : List Char) :
    Block where
  text :=
    let blank := line.head?.any isBlank
    let joint :=
      if folded && b.lineBreak.head? == some '\n' && !b.startsBlank && !blank then
        if b.emptyBreaks.isEmpty then [' '] else []
      else b.lineBreak
    b.text ++ joint ++ b.emptyBreaks ++ line
  lineBreak := lineBreak
  emptyBreaks := emptyBreaks
  startsBlank := line.head?.any isBlank

def Block.finish (chomp : Chomp) (b : Block) : List Char :=
  b.text ++ (if chomp = .strip then [] else b.lineBreak)
    ++ (if chomp = .keep then b.emptyBreaks else [])

/-- takes the lines of a block that stand at its indentation; `fuel` bounds their number -/
def blockLines (folded : Bool) (indent : Nat) : Nat → Block → Cursor → Option (Block × Cursor)
  | 0, _, _ => none
  | fuel + 1, b, c =>
    if c.column ≠ indent ∨ c.rest.isEmpty then some (b, c)
    else do
      let line := c.rest.takeWhile fun ch => !isBreak ch
      let c := c.skip line.length
      let lineBreak := (c.rest.head?.map normalBreak).toList
      let c := c.skipBreak
      let (breaks, _, c) ← emptyLines (some indent) 0 [] c.index c.line c.column c.rest
      blockLines folded indent fuel (b.addLine folded line lineBreak breaks) c

/-- takes a block behind its sign; `parent` is the column of the collection around it, if there is
one -/
def block (folded : Bool) (parent : Option Nat) (c : Cursor) : Option (List Char × Cursor) := do
  let (chomp, increment, rest) ← blockHeader c.rest
  let c ← (c.moveTo rest).endLine?
  let known := increment.map fun n => parent.getD 0 + n
  let (breaks, widest, c) ← emptyLines known 0 [] c.index c.line c.column c.rest
  let least := match parent with
    | some n => n + 1
    | none => 1
  let indent := known.getD (max widest least)
  let (b, c) ← blockLines folded indent (c.rest.length + 1) ⟨[], [], breaks, false⟩ c
  return (b.finish chomp, c)

end Scalar

end HeaderMiner.Yaml
