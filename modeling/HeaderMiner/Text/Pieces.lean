/-!
# Pieces of a text

Texts cut at a mark, and numbers in the digits of a base up to sixteen.
-/

namespace HeaderMiner.Text

/-- a text, or another list, cut at every mark -/
def splitAt {α : Type} [DecidableEq α] (mark : α) : List α → List (List α)
  | [] => [[]]
  | c :: r =>
    match splitAt mark r with
    | [] => [[]]
    | p :: ps => if c = mark then [] :: p :: ps else (c :: p) :: ps

/-- the value of a hexadecimal digit of either case -/
def hexValue? (c : Char) : Option Nat :=
  let n := c.toNat
  if 48 ≤ n ∧ n ≤ 57 then some (n - 48)
  else if 97 ≤ n ∧ n ≤ 102 then some (n - 87)
  else if 65 ≤ n ∧ n ≤ 70 then some (n - 55)
  else none

/-- the value of digits in a base, where no digits are zero -/
def digits? (base : Nat) (cs : List Char) : Option Nat :=
  cs.foldlM (fun n c => do
    let d ← hexValue? c
    if d < base then some (n * base + d) else none) 0

end HeaderMiner.Text
