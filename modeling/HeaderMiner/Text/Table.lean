import HeaderMiner.Text.Blank
import HeaderMiner.Text.Pieces
/-!
# Tables of code points

A table lists rows of code points, and a row is a word: `62` is one code point, `61-7a` a range, and
`100-12e+2` every second code point of a range, all in base 16.  Behind a colon stands what the row
maps to, as code points with points between them.
-/

namespace HeaderMiner.Text

/-- some code points, and what they are mapped to -/
structure Row where
  first : Nat
  last : Nat
  step : Nat
  value : List Nat
deriving DecidableEq, Repr

namespace Row

def number (cs : List Char) : Nat := (digits? 16 cs).getD 0

def ofWord (cs : List Char) : Row :=
  let keys := cs.takeWhile (· ≠ ':')
  let value := (cs.drop (keys.length + 1))
  let range := keys.takeWhile (· ≠ '+')
  let step := keys.drop (range.length + 1)
  let first := range.takeWhile (· ≠ '-')
  let last := range.drop (first.length + 1)
  { first := number first
    last := number (if last.isEmpty then first else last)
    step := if step.isEmpty then 1 else number step
    value := if value.isEmpty then [] else (splitAt '.' value).map number }

def ofText (table : String) : List Row := (words table.toList).map ofWord

def has (r : Row) (n : Nat) : Bool := r.first ≤ n && n ≤ r.last && (n - r.first) % r.step == 0

def contains (rows : List Row) (n : Nat) : Bool := rows.any fun r => r.has n

/-- what a table maps a code point to, the same for a whole row -/
def valueAt? (rows : List Row) (n : Nat) : Option (List Nat) :=
  (rows.find? fun r => r.has n).map Row.value

/-- what a table maps a code point to, moved along with the place in the row -/
def shiftedAt? (rows : List Row) (n : Nat) : Option (List Nat) :=
  (rows.find? fun r => r.has n).map fun r => r.value.map (· + (n - r.first))

end Row

end HeaderMiner.Text
