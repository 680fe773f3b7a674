/-!
# Labels in ASCII

A label with other characters is spelled by its ASCII characters, a hyphen, and numbers for the others
in increasing order: each tells how far to go on from the last one, counted over all code points and
all places in the label.  A number has digits in base 36, of which the last is below a threshold
that follows the size of the numbers so far.
-/

namespace HeaderMiner.Url.Domain.Punycode

/-! ## digits -/

def digit (d : Nat) : Nat := if d < 26 then 0x61 + d else 0x30 + (d - 26)

def digit? (n : Nat) : Option Nat :=
  if 0x61 ≤ n ∧ n ≤ 0x7a then some (n - 0x61)
  else if 0x41 ≤ n ∧ n ≤ 0x5a then some (n - 0x41)
  else if 0x30 ≤ n ∧ n ≤ 0x39 then some (n - 0x30 + 26)
  else none

/-- the threshold of a digit, by 36 times its place counted from one -/
def threshold (place bias : Nat) : Nat :=
  if place ≤ bias then 1 else if bias + 26 ≤ place then 26 else place - bias

theorem one_le_threshold (place bias : Nat) : 1 ≤ threshold place bias := by
  unfold threshold
  split
  · omega
  · split <;> omega

/-- the bias of a number, scaled down -/
def biasFrom (delta place : Nat) : Nat :=
  if 455 < delta then biasFrom (delta / 35) (place + 36) else place + 36 * delta / (delta + 38)
termination_by delta

/-- the bias behind a number, when there are so many characters -/
def adapt (delta count : Nat) (isFirst : Bool) : Nat :=
  let d := if isFirst then delta / 700 else delta / 2
  biasFrom (d + d / count) 0

/-! ## writing -/

def digits (bias place n : Nat) : List Nat :=
  let t := threshold place bias
  if n < t then [digit n]
  else digit (t + (n - t) % (36 - t)) :: digits bias (place + 36) ((n - t) / (36 - t))
termination_by n
decreasing_by
  have := one_le_threshold place bias
  exact Nat.lt_of_le_of_lt (Nat.div_le_self _ _) (by omega)

/-- what has been written so far -/
structure Writer where
  /-- how far it is from the last character written -/
  delta : Nat := 0
  bias : Nat := 72
  /-- the number of characters written -/
  count : Nat
  text : List Nat

/-- passes a character of the label while the code point `m` is being written -/
def Writer.pass (basic m : Nat) (w : Writer) (n : Nat) : Writer :=
  if n < m then { w with delta := w.delta + 1 }
  else if n = m then
    { delta := 0
      bias := adapt w.delta (w.count + 1) (w.count == basic)
      count := w.count + 1
      text := w.text ++ digits w.bias 36 w.delta }
  else w

/-- writes code points in increasing order, from the code point `from` on -/
def Writer.all (label : List Nat) (basic : Nat) : Nat → Writer → List Nat → Writer
  | _, w, [] => w
  | start, w, m :: ms =>
    let w := { w with delta := w.delta + (m - start) * (w.count + 1) }
    let w := label.foldl (Writer.pass basic m) w
    Writer.all label basic (m + 1) { w with delta := w.delta + 1 } ms

def encode (label : List Nat) : List Nat :=
  let basic := label.filter (· < 0x80)
  let others := ((label.filter (0x80 ≤ ·)).mergeSort (· ≤ ·)).eraseDups
  let front := if basic.isEmpty then [] else basic ++ [0x2d]
  (Writer.all label basic.length 0x80 { count := basic.length, text := front } others).text

/-! ## reading -/

/-- what has been read so far -/
structure Reader where
  code : Nat := 0x80
  /-- where the next character goes, counted on over all code points -/
  index : Nat := 0
  bias : Nat := 72
  /-- the index at which the number being read began -/
  start : Nat := 0
  /-- what the next digit counts -/
  weight : Nat := 1
  place : Nat := 36
  text : List Nat

def Reader.next (r : Reader) (n : Nat) : Option Reader := do
  let d ← digit? n
  let index := r.index + d * r.weight
  let t := threshold r.place r.bias
  if t ≤ d then some { r with index, weight := r.weight * (36 - t), place := r.place + 36 }
  else
    let count := r.text.length + 1
    let code := r.code + index / count
    if code.isValidChar then
      some { code
             index := index % count + 1
             bias := adapt (index - r.start) count (r.start == 0)
             start := index % count + 1
             text := r.text.insertIdx (index % count) code }
    else none

def decode? (spelling : List Nat) : Option (List Nat) := do
  let behind := (spelling.reverse.takeWhile (· ≠ 0x2d)).reverse
  let basic := (spelling.take (spelling.length - behind.length)).dropLast
  let r ← behind.foldlM Reader.next { text := basic }
  if r.place = 36 then some r.text else none

end HeaderMiner.Url.Domain.Punycode
