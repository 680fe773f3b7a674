/-!
# Cancellation

A token can be cancelled once and for all, and with it every token derived from it, earlier or
later.  A token is the path from its own number back to its root's, so a token is derived from
another exactly when the other's path is an end of its own, and cancelling is remembering a path.
-/

namespace HeaderMiner

/-- the numbers from a token back to its root -/
abbrev Token := List Nat

/-- which tokens are cancelled, and the next unused number -/
structure Tokens where
  cancelled : List Token := []
  next : Nat := 0
deriving DecidableEq, Repr

namespace Tokens

def child (ts : Tokens) (parent : Token) : Token × Tokens :=
  (ts.next :: parent, { ts with next := ts.next + 1 })

def root (ts : Tokens) : Token × Tokens := ts.child []

/-- cancels a token and all that are derived from it -/
def cancel (ts : Tokens) (t : Token) : Tokens := { ts with cancelled := t :: ts.cancelled }

/-- whether a token or one that it is derived from has been cancelled -/
def isCancelled (ts : Tokens) (t : Token) : Bool := ts.cancelled.any (·.isSuffixOf t)

theorem isCancelled_iff (ts : Tokens) (t : Token) :
    ts.isCancelled t = true ↔ ∃ c ∈ ts.cancelled, c <:+ t := by
  simp [isCancelled]

theorem isCancelled_cancel (ts : Tokens) (c t : Token) :
    (ts.cancel c).isCancelled t = (c.isSuffixOf t || ts.isCancelled t) := rfl

theorem isCancelled_child (ts : Tokens) (parent t : Token) :
    (ts.child parent).2.isCancelled t = ts.isCancelled t := rfl

end Tokens

end HeaderMiner
