import HeaderMiner.Power
/-!
# JSON values

Numbers keep the kind that their text gives them: a natural number below `2 ^ 64`, a negative
integer down to `-2 ^ 63`, or a double.  An object holds its members in the order of their keys,
each key once; inserting a key again replaces its value.
-/

namespace HeaderMiner

inductive Json where
  | null
  | bool (b : Bool)
  | natural (n : Nat)
  | negative (n : Int)
  | double (x : Float)
  | string (s : String)
  | array (items : List Json)
  | object (members : List (String × Json))
deriving Inhabited

namespace Json

/-- inserts a member at the place of its key, over a member of the same key -/
def insert (key : String) (value : Json) : List (String × Json) → List (String × Json)
  | [] => [(key, value)]
  | (k, v) :: rest =>
    if key = k then (key, value) :: rest
    else if key < k then (key, value) :: (k, v) :: rest
    else (k, v) :: insert key value rest

/-- an object of members in any order, where of one key the last counts -/
def ofMembers (members : List (String × Json)) : Json :=
  .object (members.foldl (fun acc m => insert m.1 m.2 acc) [])

def lookup (key : String) : List (String × Json) → Option Json
  | [] => none
  | (k, v) :: rest => if k = key then some v else lookup key rest

/-- the value of a key, where a value that is no object has none -/
def get? (key : String) : Json → Option Json
  | .object members => lookup key members
  | _ => none

def isNull : Json → Bool
  | .null => true
  | _ => false

def asString? : Json → Option String
  | .string s => some s
  | _ => none

def asBool? : Json → Option Bool
  | .bool b => some b
  | _ => none

def asArray? : Json → Option (List Json)
  | .array items => some items
  | _ => none

/-- a natural number, which no other spelling of the same value counts as -/
def asNat? : Json → Option Nat
  | .natural n => some n
  | _ => none

/-- an integer that fits 64 bits with a sign -/
def asInt? : Json → Option Int
  | .natural n => if n < 2 ^ 63 then some (Int.ofNat n) else none
  | .negative n => some n
  | _ => none

theorem lookup_insert_self (key : String) (value : Json) (members : List (String × Json)) :
    lookup key (insert key value members) = some value := by
  induction members with
  | nil => simp [insert, lookup]
  | cons m rest ih =>
    obtain ⟨k, v⟩ := m
    rw [insert]
    split
    · simp [lookup]
    · split
      · simp [lookup]
      · rename_i hne _
        rw [lookup, if_neg (Ne.symm hne), ih]

end Json

end HeaderMiner
