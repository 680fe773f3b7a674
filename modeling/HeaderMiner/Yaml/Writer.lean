import HeaderMiner.Yaml.Plain
/-!
# Writing YAML

A mapping of scalars and of sequences of scalars, one member or item on a line.  A text is written
plain where that reads back as the same text, as a literal block where it has several lines, and
otherwise in single quotes; only what these cannot hold is written in double quotes with escapes.
-/

namespace HeaderMiner.Yaml

/-! ## what a text admits -/

/-- the characters that are written as they are -/
def isPrintable (c : Char) : Bool :=
  let n := c.toNat
  n = 0x0a || (0x20 ≤ n && n ≤ 0x7e) || (0xa0 ≤ n && n ≤ 0xd7ff)
    || (0xe000 ≤ n && n ≤ 0xfffd && n != 0xfeff) || 0x10000 ≤ n

/-- the characters that start no plain text -/
def isOpening (c : Char) : Bool := "#,[]\x7b\x7d&*!|>'\"%@\x60".contains c

/-- whether a plain text would be read as a mark, given the character in front of it -/
def hasMark (before : Option Char) : List Char → Bool
  | [] => false
  | c :: r =>
    let apart := startsGap r
    (match before with
      | none => isOpening c || ((c = '?' || c = ':' || c = '-') && apart)
      | some b => (c = ':' && apart) || (c = '#' && isGap b))
      || hasMark (some c) r

/-- whether two characters stand side by side, where each passes its test -/
def hasPair (p q : Char → Bool) : List Char → Bool
  | a :: b :: r => (p a && q b) || hasPair p q (b :: r)
  | _ => false

/-- what is written in no way but with escapes -/
def needsEscapes (cs : List Char) : Bool :=
  cs.any (fun c => !isPrintable c) || hasPair (· = ' ') isBreak cs

def startsWithDots (cs : List Char) : Bool :=
  cs.take 3 == ['-', '-', '-'] || cs.take 3 == ['.', '.', '.']

/-- whether a text can be written plain -/
def admitsPlain (cs : List Char) : Bool :=
  let edge (c : Option Char) : Bool := c.any fun c => c = ' ' || isBreak c
  !(needsEscapes cs || cs.any isBreak || edge cs.head? || edge cs.getLast? || startsWithDots cs
    || hasMark none cs)

def admitsSingle (cs : List Char) : Bool := !(needsEscapes cs || hasPair isBreak (· = ' ') cs)

def admitsBlock (cs : List Char) : Bool := !(needsEscapes cs || cs.getLast? == some ' ')

def styleOf (s : String) : Style :=
  let cs := s.toList
  if cs.contains '\n' then if admitsBlock cs then .literal else .doubleQuoted
  else if Plain.isTyped s || !admitsPlain cs then
    if admitsSingle cs then .singleQuoted else .doubleQuoted
  else .plain

/-! ## the styles -/

/-- a text in single quotes; a line behind a break is indented -/
def singleFrom (broken : Bool) : List Char → List Char
  | [] => if broken then [' ', ' '] else []
  | c :: r =>
    if isBreak c then c :: singleFrom true r
    else (if broken then [' ', ' '] else []) ++ (if c = '\'' then ['\'', '\''] else [c])
      ++ singleFrom false r

def singleText (cs : List Char) : List Char := '\'' :: singleFrom false cs ++ ['\'']

def escapeLetter? (c : Char) : Option Char :=
  match c.toNat with
  | 0x00 => some '0'
  | 0x07 => some 'a'
  | 0x08 => some 'b'
  | 0x09 => some 't'
  | 0x0a => some 'n'
  | 0x0b => some 'v'
  | 0x0c => some 'f'
  | 0x0d => some 'r'
  | 0x1b => some 'e'
  | 0x22 => some '"'
  | 0x5c => some '\\'
  | 0x85 => some 'N'
  | 0xa0 => some '_'
  | 0x2028 => some 'L'
  | 0x2029 => some 'P'
  | _ => none

/-- a number in `width` hexadecimal digits -/
def hexText (width n : Nat) : List Char :=
  let ds := (Nat.toDigits 16 n).map Char.toUpper
  List.replicate (width - ds.length) '0' ++ ds

def escaped (c : Char) : List Char :=
  if isPrintable c && !isBreak c && c != '"' && c != '\\' then [c]
  else match escapeLetter? c with
    | some l => ['\\', l]
    | none =>
      let n := c.toNat
      if n ≤ 0xff then '\\' :: 'x' :: hexText 2 n
      else if n ≤ 0xffff then '\\' :: 'u' :: hexText 4 n
      else '\\' :: 'U' :: hexText 8 n

def doubleText (cs : List Char) : List Char := '"' :: cs.flatMap escaped ++ ['"']

/-- the lines of a block, each indented -/
def blockFrom (broken : Bool) : List Char → List Char
  | [] => []
  | c :: r =>
    if isBreak c then c :: blockFrom true r
    else (if broken then [' ', ' '] else []) ++ c :: blockFrom false r

/-- whether the breaks at the end of a text are all kept -/
def keepsBreaks (cs : List Char) : Bool :=
  match cs.reverse with
  | a :: b :: _ => isBreak a && isBreak b
  | [a] => isBreak a
  | [] => false

/-- the marks behind the sign of a block -/
def blockMarks (cs : List Char) : List Char :=
  (if cs.head?.any fun c => c = ' ' || isBreak c then ['2'] else [])
    ++ (if keepsBreaks cs then ['+'] else if cs.getLast?.any isBreak then [] else ['-'])

/-- a literal block, without the break at its end -/
def literalText (cs : List Char) : List Char :=
  '|' :: blockMarks cs ++ '\n' :: blockFrom true cs

def scalarText (style : Style) (s : String) : List Char :=
  match style with
  | .plain => s.toList
  | .singleQuoted => singleText s.toList
  | .doubleQuoted => doubleText s.toList
  | .literal | .folded => literalText s.toList

/-! ## documents -/

/-- the node of a text, in the style that it is written in -/
def Node.text (s : String) : Node := .scalar (styleOf s) none s

/-- the node of a value that its spelling tells -/
def Node.plain (s : String) : Node := .scalar .plain none s

/-- ends a line, which a block that ends with a break has done itself -/
def endLine (cs : List Char) : List Char :=
  if cs.getLast?.any isBreak then cs else cs ++ ['\n']

def Node.itemText : Node → List Char
  | .scalar style _ s => endLine ('-' :: ' ' :: scalarText style s)
  | _ => []

/-- the value of a member, behind its colon -/
def Node.valueText : Node → List Char
  | .scalar style _ s => endLine (' ' :: scalarText style s)
  | .sequence [] => " []\n".toList
  | .sequence items => '\n' :: items.flatMap itemText
  | _ => []

/-- whether the last line of a text ends in breaks that have to be kept -/
def Node.endsOpen : Node → Bool
  | .scalar .literal _ s => keepsBreaks s.toList
  | _ => false

/-- a mapping of scalars and of sequences of scalars; a mark ends it where the breaks at its end
count -/
def recordText (members : List (String × Node)) : String :=
  String.ofList <|
    (members.flatMap fun m => m.1.toList ++ ':' :: m.2.valueText)
      ++ (if members.getLast?.any (·.2.endsOpen) then "...\n".toList else [])

end HeaderMiner.Yaml
