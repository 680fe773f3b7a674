import HeaderMiner.Utf8
import HeaderMiner.Yaml.Scalar
/-!
# YAML tokens

A block collection is opened and closed by the columns that its parts stand at, and a key is only
known as one when a colon follows on its line.  So tokens are collected with *places* in front of
everything that may turn out to be a key; a place that does is filled by a key mark, and by the
start of a mapping in front of that if the key opens one.
-/

namespace HeaderMiner.Yaml

inductive Token where
  /-- the version of YAML that a document asks for -/
  | version (major minor : Nat)
  /-- what a tag handle stands for -/
  | handle (name expansion : String)
  | documentStart
  | documentEnd
  | blockSequence
  | blockMapping
  | blockEnd
  | flowSequence
  | flowSequenceEnd
  | flowMapping
  | flowMappingEnd
  /-- the dash of a block sequence -/
  | dash
  | comma
  | key
  | value
  | alias (name : String)
  | anchor (name : String)
  /-- a tag as a handle and the text behind it; without a handle the text is the tag -/
  | tag (handle : Option String) (rest : String)
  | scalar (style : Style) (text : String)
deriving DecidableEq

/-- a token, or a place for a key -/
inductive Entry where
  | token (t : Token)
  | place (n : Nat)

/-- something that a colon behind it would make a key -/
structure KeyPlace where
  place : Nat
  /-- whether nothing but a key can stand there -/
  required : Bool
  index : Nat
  line : Nat
  column : Nat

structure Scanner where
  cursor : Cursor
  /-- the entries so far, last first -/
  entries : List Entry := []
  /-- the places that are filled, each with whether a mapping starts there -/
  filled : List (Nat × Bool) := []
  /-- the number of places so far -/
  places : Nat := 0
  /-- the place that a colon would fill now -/
  candidate : Option KeyPlace := none
  /-- the same for the collections around each open flow collection, innermost first -/
  outer : List (Option KeyPlace) := []
  /-- the columns of the open block collections, innermost first -/
  columns : List Nat := []
  /-- whether a key may start here -/
  keyAllowed : Bool := true

namespace Scanner

def inFlow (s : Scanner) : Bool := !s.outer.isEmpty

def add (s : Scanner) (t : Token) : Scanner := { s with entries := .token t :: s.entries }

def moveTo (s : Scanner) (c : Cursor) : Scanner := { s with cursor := c }

/-! ## keys -/

/-- a key ends on the line it starts on, and within 1024 characters -/
def isStale (c : Cursor) (k : KeyPlace) : Bool := k.line < c.line || k.index + 1024 < c.index

/-- forgets a candidate that can no longer be a key, unless it has to be one -/
def refresh (c : Cursor) : Option KeyPlace → Option (Option KeyPlace)
  | none => some none
  | some k => if isStale c k then (if k.required then none else some none) else some (some k)

/-- forgets all candidates that can no longer be keys -/
def forgetStale (s : Scanner) : Option Scanner := do
  let candidate ← refresh s.cursor s.candidate
  let outer ← s.outer.mapM (refresh s.cursor)
  return { s with candidate, outer }

/-- gives up the current candidate, unless it has to be a key -/
def dropCandidate (s : Scanner) : Option Scanner :=
  if s.candidate.any (·.required) then none else some { s with candidate := none }

/-- makes a place for what starts here, if a key may -/
def reserve (s : Scanner) : Option Scanner :=
  if s.keyAllowed then do
    let s ← s.dropCandidate
    let c := s.cursor
    let required := !s.inFlow && s.columns.head? == some c.column
    return { s with
      entries := .place s.places :: s.entries
      places := s.places + 1
      candidate := some ⟨s.places, required, c.index, c.line, c.column⟩ }
  else some s

/-! ## columns -/

/-- whether a block collection at a column stands inside the open ones -/
def isDeeper (s : Scanner) (column : Nat) : Bool :=
  !s.inFlow && s.columns.head?.all (· < column)

/-- opens a block collection at a column, if it stands inside the open ones -/
def openBlock (s : Scanner) (column : Nat) (t : Token) : Scanner :=
  if s.isDeeper column then { s.add t with columns := column :: s.columns } else s

/-- closes the block collections that stand behind a column, `none` for all of them -/
def closeTo (column : Option Nat) (entries : List Entry) : List Nat → List Entry × List Nat
  | [] => (entries, [])
  | k :: ks =>
    if column.all (· < k) then closeTo column (.token .blockEnd :: entries) ks
    else (entries, k :: ks)

def closeBlocks (s : Scanner) (column : Option Nat) : Scanner :=
  if s.inFlow then s
  else
    let (entries, columns) := closeTo column s.entries s.columns
    { s with entries, columns }

/-! ## marks -/

/-- adds a token for the next `n` characters -/
def addMark (s : Scanner) (n : Nat) (t : Token) : Scanner := (s.add t).moveTo (s.cursor.skip n)

def documentMark (s : Scanner) (t : Token) : Option Scanner := do
  let s ← (s.closeBlocks none).dropCandidate
  return { s.addMark 3 t with keyAllowed := false }

def openFlow (s : Scanner) (t : Token) : Option Scanner := do
  let s ← s.reserve
  return { s.addMark 1 t with candidate := none, outer := s.candidate :: s.outer, keyAllowed := true }

def closeFlow (s : Scanner) (t : Token) : Option Scanner := do
  let s ← s.dropCandidate
  let s := { s.addMark 1 t with keyAllowed := false }
  match s.outer with
  | [] => return s
  | candidate :: outer => return { s with candidate, outer }

def comma (s : Scanner) : Option Scanner := do
  let s ← s.dropCandidate
  return { s.addMark 1 .comma with keyAllowed := true }

/-- in a block collection, a dash or a key mark may stand only where a key may -/
def openMarked (s : Scanner) (t : Token) : Option Scanner :=
  if s.inFlow then some s
  else if s.keyAllowed then some (s.openBlock s.cursor.column t)
  else none

def dash (s : Scanner) : Option Scanner := do
  let s ← (← s.openMarked .blockSequence).dropCandidate
  return { s.addMark 1 .dash with keyAllowed := true }

def key (s : Scanner) : Option Scanner := do
  let s ← (← s.openMarked .blockMapping).dropCandidate
  return { s.addMark 1 .key with keyAllowed := !s.inFlow }

def value (s : Scanner) : Option Scanner :=
  match s.candidate with
  | some k =>
    let opens := s.isDeeper k.column
    some { s.addMark 1 .value with
      filled := (k.place, opens) :: s.filled
      columns := if opens then k.column :: s.columns else s.columns
      candidate := none
      keyAllowed := false }
  | none => do
    let s ← s.openMarked .blockMapping
    return { s.addMark 1 .value with keyAllowed := !s.inFlow }

/-! ## names and tags -/

/-- takes the name behind the sign of an anchor or alias -/
def name? (c : Cursor) : Option (String × Cursor) :=
  let c := c.skip 1
  let name := c.rest.takeWhile isWord
  let c := c.skip name.length
  let ends := c.rest.head?.all fun d =>
    isGap d || d = '?' || d = ':' || d = ',' || d = ']' || d = '\x7d' || d = '%' || d = '@'
      || d = '\x60'
  if name.isEmpty || !ends then none else some (String.ofList name, c)

def named (s : Scanner) (t : String → Token) : Option Scanner := do
  let s ← s.reserve
  let (name, c) ← name? s.cursor
  return { (s.add (t name)).moveTo c with keyAllowed := false }

/-- the characters of a tag; the brackets and the comma only where nothing else could be meant -/
def isTagChar (all : Bool) (c : Char) : Bool :=
  isWord c || ";/?:@&=+$.!~*'()%".contains c || (all && (c = ',' || c = '[' || c = ']'))

/-- the bytes of a tag, some of them written behind percent signs -/
def tagBytes : List Char → Option (List UInt8)
  | [] => some []
  | '%' :: a :: b :: r => do
    let n := (← Text.hexValue? a) * 16 + (← Text.hexValue? b)
    return UInt8.ofNat n :: (← tagBytes r)
  | c :: r => if c = '%' then none else (tagBytes r).map (String.utf8EncodeChar c ++ ·)

def tagText (all : Bool) (c : Cursor) : Option (String × Cursor) := do
  let cs := c.rest.takeWhile (isTagChar all)
  return (← Utf8.decode? (← tagBytes cs), c.skip cs.length)

/-- takes a tag at its exclamation mark -/
def tag? (c : Cursor) : Option (Token × Cursor) :=
  match c.rest with
  | '!' :: '<' :: _ => do
    let (text, c) ← tagText true (c.skip 2)
    if text.isEmpty || c.rest.head? ≠ some '>' then none else some (.tag none text, c.skip 1)
  | _ => do
    let word := (c.rest.drop 1).takeWhile isWord
    let c := c.skip (word.length + 1)
    if c.rest.head? = some '!' then
      let (text, c) ← tagText false (c.skip 1)
      if text.isEmpty then none
      else some (.tag (some ("!" ++ String.ofList word ++ "!")) text, c)
    else
      let (text, c) ← tagText false c
      let text := String.ofList word ++ text
      if text.isEmpty then some (.tag none "!", c) else some (.tag (some "!") text, c)

def tag (s : Scanner) : Option Scanner := do
  let s ← s.reserve
  let (t, c) ← tag? s.cursor
  if startsGap c.rest || (s.inFlow && c.rest.head? == some ',') then
    return { (s.add t).moveTo c with keyAllowed := false }
  else none

/-! ## directives -/

/-- takes a number of up to nine digits -/
def versionNumber? (c : Cursor) : Option (Nat × Cursor) :=
  let ds := c.rest.takeWhile Char.isDigit
  if ds.isEmpty ∨ 9 < ds.length then none
  else some (ds.foldl (fun n d => n * 10 + (d.toNat - 48)) 0, c.skip ds.length)

/-- takes the handle that a directive explains: an exclamation mark, or a word between two -/
def handle? (c : Cursor) : Option (String × Cursor) :=
  match c.rest with
  | '!' :: r =>
    let word := r.takeWhile isWord
    match r.drop word.length with
    | '!' :: _ => some ("!" ++ String.ofList word ++ "!", c.skip (word.length + 2))
    | _ => if word.isEmpty then some ("!", c.skip 1) else none
  | _ => none

/-- takes a directive at its percent sign -/
def directive? (c : Cursor) : Option (Token × Cursor) := do
  let c := c.skip 1
  let name := c.rest.takeWhile isWord
  let c := c.skip name.length
  if !startsGap c.rest then none
  else
    let c := c.skipWhile isBlank
    let (t, c) ←
      match String.ofList name with
      | "YAML" => do
        let (major, c) ← versionNumber? c
        if c.rest.head? ≠ some '.' then none
        else
          let (minor, c) ← versionNumber? (c.skip 1)
          some (Token.version major minor, c)
      | "TAG" => do
        let (handle, c) ← handle? c
        if !c.rest.head?.any isBlank then none
        else
          let (text, c) ← tagText true (c.skipWhile isBlank)
          if text.isEmpty || !startsGap c.rest then none else some (Token.handle handle text, c)
      | _ => none
    return (t, ← c.endLine?)

def directive (s : Scanner) : Option Scanner := do
  let s ← (s.closeBlocks none).dropCandidate
  let (t, c) ← directive? s.cursor
  return { (s.add t).moveTo c with keyAllowed := false }

/-! ## scalars -/

def addScalar (s : Scanner) (style : Style) (text : List Char) (c : Cursor) : Scanner :=
  (s.add (.scalar style (String.ofList text))).moveTo c

def quotedScalar (s : Scanner) (double : Bool) : Option Scanner := do
  let s ← s.reserve
  let (text, c) ← Scalar.quoted double (s.cursor.skip 1)
  let style := if double then Style.doubleQuoted else .singleQuoted
  return { s.addScalar style text c with keyAllowed := false }

def blockScalar (s : Scanner) (folded : Bool) : Option Scanner := do
  let s ← s.dropCandidate
  let (text, c) ← Scalar.block folded s.columns.head? (s.cursor.skip 1)
  return { s.addScalar (if folded then .folded else .literal) text c with keyAllowed := true }

def plainScalar (s : Scanner) : Option Scanner := do
  let s ← s.reserve
  let indent := match s.columns.head? with
    | some k => k + 1
    | none => 0
  let (text, c, ended) ← Scalar.plain s.inFlow indent s.cursor
  return { s.addScalar .plain text c with keyAllowed := ended }

/-- the characters that start no plain scalar -/
def isIndicator (c : Char) : Bool := "-?:,[]\x7b\x7d#&*!|>'\"%@\x60".contains c

/-- whether a plain scalar can start with a text -/
def startsPlain (flow : Bool) : List Char → Bool
  | [] => false
  | c :: r =>
    !(isGap c || isIndicator c) || (c = '-' && !r.head?.any isBlank)
      || (!flow && (c = '?' || c = ':') && !startsGap r)

/-! ## the whole text -/

/-- moves over blanks, comments and line breaks to the next token.  A tab is no blank where a key
may start. -/
def skipGap : Nat → Scanner → Scanner
  | 0, s => s
  | fuel + 1, s =>
    let c := if s.cursor.index = 0 ∧ s.cursor.rest.head? = some '\ufeff' then s.cursor.skip 1
      else s.cursor
    let c := c.skipWhile fun ch => ch = ' ' || (ch = '\t' && (s.inFlow || !s.keyAllowed))
    let c := if c.rest.head? = some '#' then c.skipWhile fun ch => !isBreak ch else c
    if c.rest.head?.any isBreak then
      skipGap fuel { s with cursor := c.skipBreak, keyAllowed := s.keyAllowed || !s.inFlow }
    else { s with cursor := c }

def finish (s : Scanner) : Option Scanner := (s.closeBlocks none).dropCandidate

def token (s : Scanner) (c : Char) (r : List Char) : Option Scanner :=
  let marked := s.inFlow || startsGap r
  if s.cursor.column = 0 ∧ c = '%' then s.directive
  else if s.cursor.atMarker then
    s.documentMark (if c = '-' then .documentStart else .documentEnd)
  else if c = '[' then s.openFlow .flowSequence
  else if c = '\x7b' then s.openFlow .flowMapping
  else if c = ']' then s.closeFlow .flowSequenceEnd
  else if c = '\x7d' then s.closeFlow .flowMappingEnd
  else if c = ',' then s.comma
  else if c = '-' ∧ startsGap r then s.dash
  else if c = '?' ∧ marked then s.key
  else if c = ':' ∧ marked then s.value
  else if c = '*' then s.named .alias
  else if c = '&' then s.named .anchor
  else if c = '!' then s.tag
  else if c = '|' ∧ !s.inFlow then s.blockScalar false
  else if c = '>' ∧ !s.inFlow then s.blockScalar true
  else if c = '\'' then s.quotedScalar false
  else if c = '"' then s.quotedScalar true
  else if startsPlain s.inFlow (c :: r) then s.plainScalar
  else none

/-- takes the rest of the tokens; `fuel` bounds their number -/
def run : Nat → Scanner → Option Scanner
  | 0, _ => none
  | fuel + 1, s => do
    let s ← (s.skipGap (s.cursor.rest.length + 1)).forgetStale
    let s := s.closeBlocks (some s.cursor.column)
    match s.cursor.rest with
    | [] => s.finish
    | c :: r => run fuel (← s.token c r)

/-- the tokens of the entries, where a place is filled or vanishes -/
def linearise (filled : List (Nat × Bool)) (entries : List Entry) : List Token :=
  entries.flatMap fun e =>
    match e with
    | .token t => [t]
    | .place n =>
      match filled.lookup n with
      | some true => [.blockMapping, .key]
      | some false => [.key]
      | none => []

end Scanner

def tokens? (text : List Char) : Option (List Token) :=
  if text.all isAllowed then do
    let s ← Scanner.run (text.length + 1) { cursor := { rest := text } }
    return Scanner.linearise s.filled s.entries.reverse
  else none

end HeaderMiner.Yaml
