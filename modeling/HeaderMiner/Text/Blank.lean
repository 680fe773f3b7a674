/-!
# Blank characters

The white space of Unicode (property `White_Space`), the cut of a text into words at it, and the
text without the blanks around it.
-/

namespace HeaderMiner.Text

/-- the white space of Unicode -/
def isBlank (c : Char) : Bool :=
  let n := c.toNat
  (9 ≤ n && n ≤ 13) || n = 0x20 || n = 0x85 || n = 0xa0 || n = 0x1680
    || (0x2000 ≤ n && n ≤ 0x200a) || n = 0x2028 || n = 0x2029 || n = 0x202f || n = 0x205f
    || n = 0x3000

/-- the text from its first character that is not blank on -/
def trimStart (cs : List Char) : List Char := cs.dropWhile isBlank

def trim (cs : List Char) : List Char := (trimStart (trimStart cs).reverse).reverse

/-- the words of a text, where `current` holds the letters of the word begun, last letter first -/
def wordsFrom (current : List Char) : List Char → List (List Char)
  | [] => if current.isEmpty then [] else [current.reverse]
  | c :: cs =>
    if isBlank c then
      if current.isEmpty then wordsFrom [] cs else current.reverse :: wordsFrom [] cs
    else wordsFrom (c :: current) cs

/-- the maximal runs of characters that are not blank, in order -/
def words (cs : List Char) : List (List Char) := wordsFrom [] cs

theorem wordsFrom_nil (current : List Char) :
    wordsFrom current [] = if current.isEmpty then [] else [current.reverse] := rfl

end HeaderMiner.Text
