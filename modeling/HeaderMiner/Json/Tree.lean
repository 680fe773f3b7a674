import HeaderMiner.Json.Value
/-!
# JSON texts as trees

A tree keeps what its text says: the members of an object in their order, and keys that come twice.
Its value (`Tree.value?`) sorts the members and lets the last of one key count; it exists if every
scalar has a value and at most 127 containers are nested.
-/

namespace HeaderMiner.Json

inductive Tree where
  /-- a scalar, with its value if it has one -/
  | scalar (v : Option Json)
  | array (items : List Tree)
  | object (members : List (String × Tree))
deriving Inhabited

namespace Tree

/-- the depth at which no further container may be nested in a value -/
def depthLimit : Nat := 127

mutual

/-- the value of a tree with at most `depth` nested containers -/
def valueWithin : Nat → Tree → Option Json
  | _, .scalar v => v
  | 0, _ => none
  | depth + 1, .array items => (itemsWithin depth items).map .array
  | depth + 1, .object members => (membersWithin depth members).map ofMembers

def itemsWithin : Nat → List Tree → Option (List Json)
  | _, [] => some []
  | depth, t :: ts => do return (← valueWithin depth t) :: (← itemsWithin depth ts)

def membersWithin : Nat → List (String × Tree) → Option (List (String × Json))
  | _, [] => some []
  | depth, (k, t) :: ms => do return (k, ← valueWithin depth t) :: (← membersWithin depth ms)

end

def value? (t : Tree) : Option Json := valueWithin depthLimit t

end Tree

end HeaderMiner.Json
