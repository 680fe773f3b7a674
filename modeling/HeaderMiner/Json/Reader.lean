import HeaderMiner.Json.Token
import HeaderMiner.Json.Tree
import HeaderMiner.Utf8
/-!
# Reading JSON

A machine that takes the tokens of a text one by one and keeps the containers still open, innermost
first.
-/

namespace HeaderMiner.Json

/-- an open container with what it holds so far, last first -/
inductive Frame where
  | array (items : List Tree)
  | object (members : List (String × Tree)) (key : String)

/-- what the machine waits for -/
inductive Want where
  | value
  | firstItem
  | firstKey
  | key
  | colon
  | separator
  | nothing (t : Tree)

structure Machine where
  open_ : List Frame
  want : Want

namespace Machine

/-- puts a finished tree into the innermost container -/
def close (t : Tree) : List Frame → Machine
  | [] => ⟨[], .nothing t⟩
  | .array items :: fs => ⟨.array (t :: items) :: fs, .separator⟩
  | .object members key :: fs => ⟨.object ((key, t) :: members) "" :: fs, .separator⟩

def begin (m : Machine) : Token → Option Machine
  | .scalar v => some (close (.scalar v) m.open_)
  | .openArray => some ⟨.array [] :: m.open_, .firstItem⟩
  | .openObject => some ⟨.object [] "" :: m.open_, .firstKey⟩
  | _ => none

def takeKey (m : Machine) : Token → Option Machine
  | .scalar (some (.string k)) =>
    match m.open_ with
    | .object members _ :: fs => some ⟨.object members k :: fs, .colon⟩
    | _ => none
  | _ => none

/-- the machine after one more token -/
def step (m : Machine) (t : Token) : Option Machine :=
  match m.want, t, m.open_ with
  | .value, t, _ => m.begin t
  | .firstItem, .closeArray, .array items :: fs => some (close (.array items.reverse) fs)
  | .firstItem, t, _ => m.begin t
  | .firstKey, .closeObject, .object members _ :: fs =>
    some (close (.object members.reverse) fs)
  | .firstKey, t, _ => m.takeKey t
  | .key, t, _ => m.takeKey t
  | .colon, .colon, fs => some ⟨fs, .value⟩
  | .separator, .comma, .array items :: fs => some ⟨.array items :: fs, .value⟩
  | .separator, .comma, .object members k :: fs => some ⟨.object members k :: fs, .key⟩
  | .separator, .closeArray, .array items :: fs => some (close (.array items.reverse) fs)
  | .separator, .closeObject, .object members _ :: fs =>
    some (close (.object members.reverse) fs)
  | _, _, _ => none

def start : Machine := ⟨[], .value⟩

/-- the tree of a machine that waits for nothing more -/
def result? (m : Machine) : Option Tree :=
  match m.want with
  | .nothing t => some t
  | _ => none

end Machine

def Tree.parse? (s : String) : Option Tree := do
  let ts ← tokens s.toList
  let m ← ts.foldlM Machine.step Machine.start
  m.result?

def parse? (s : String) : Option Json := (Tree.parse? s).bind Tree.value?

/-- the value of a JSON text in UTF-8 -/
def parseBytes? (bs : List UInt8) : Option Json := (Utf8.decode? bs).bind parse?

end HeaderMiner.Json
