/-!
# Decimal numbers of a bounded size

A number is one or more decimal digits, after an optional plus sign.  Digits are taken from the
left; the first that is no digit, or that takes the number over the bound, decides the fault.
-/

namespace HeaderMiner.Text

/-- why a text is no number below the bound -/
inductive NumberFault where
  | empty
  | badDigit
  | tooLarge
deriving DecidableEq, Repr

def NumberFault.message : NumberFault → String
  | .empty => "cannot parse integer from empty string"
  | .badDigit => "invalid digit found in string"
  | .tooLarge => "number too large to fit in target type"

def digit? (c : Char) : Option Nat :=
  if '0' ≤ c ∧ c ≤ '9' then some (c.toNat - 48) else none

/-- reads digits after a number `n` already read, keeping the number below `bound` -/
def naturalFrom (bound n : Nat) : List Char → Except NumberFault Nat
  | [] => .ok n
  | c :: cs =>
    match digit? c with
    | none => .error .badDigit
    | some d => if n * 10 + d < bound then naturalFrom bound (n * 10 + d) cs else .error .tooLarge

def natural (bound : Nat) : List Char → Except NumberFault Nat
  | [] => .error .empty
  | ['+'] => .error .badDigit
  | '+' :: cs => naturalFrom bound 0 cs
  | cs => naturalFrom bound 0 cs

end HeaderMiner.Text
