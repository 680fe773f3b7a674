import HeaderMiner.Header
import HeaderMiner.Target
import HeaderMiner.Json.Expected
import HeaderMiner.Json.Writer
/-!
# Work

What a node answers when asked for work, and what it answers when a block is submitted.  An answer
becomes work in two steps: it is decoded by its members' types alone (`WorkAnswer.ofJson`), and
then each member is checked for the network that the miner expects (`WorkAnswer.validate`), in the
order network, header, target, height, time.
-/

namespace HeaderMiner

/-- work as the node describes it -/
structure WorkAnswer where
  network : String
  /-- the header in hexadecimal -/
  data : String
  /-- the target in hexadecimal -/
  target : String
  height : Json
  time : Json

structure Work where
  header : Header
  target : Target
  height : UInt32
  time : UInt32
deriving DecidableEq

/-- the identity of work, by which it is told from other work -/
def Work.identity (w : Work) : Octets 32 := w.header.maskHash

namespace WorkAnswer

/-- the members of an answer, or the fault of the first that is wrong -/
def ofMembers (members : List (String × Json)) : Except String WorkAnswer := do
  Json.checkStrings ["network", "data", "target"] members
  let network ← Json.stringAt members "network"
  let data ← Json.stringAt members "data"
  let target ← Json.stringAt members "target"
  let height ← Json.valueAt members "height"
  let time ← Json.valueAt members "time"
  return { network, data, target, height, time }

/-- decodes the node's result; no work is written `null` -/
def ofJson : Json → Except Error (Option WorkAnswer)
  | .null => .ok none
  | .object members =>
    match ofMembers members with
    | .ok a => .ok (some a)
    | .error why => .error (.protocol ("Malformed getwork response: " ++ why))
  | _ => .error (.protocol "Non-object sent as getwork response.")

def word? (v : Json) : Option UInt32 :=
  match v.asNat? with
  | some n => if n < 2 ^ 32 then some (UInt32.ofNat n) else none
  | none => none

/-- the wording for a value that is not a number of 32 bits -/
def notWord (v : Json) : String := v.text ++ " is not a u32"

def validate (a : WorkAnswer) (network : Network) : Except Error Work := do
  if a.network ≠ network.name then throw (.wrongNetwork network.name a.network)
  let header ← Header.ofHex a.data
  let target ← Target.ofHex a.target
  let some height := word? a.height | throw (.badHeight (notWord a.height))
  let some time := word? a.time | throw (.badTime (notWord a.time))
  return { header, target, height, time }

end WorkAnswer

/-- the node's verdict on a submitted block -/
structure Verdict where
  accepted : Bool
  reason : String
deriving DecidableEq, Repr

/-- decodes a verdict: an array of a boolean, a string and whatever else -/
def Verdict.ofJson (v : Json) : Except Error Verdict := do
  let some items := v.asArray? | throw (.protocol "Non-array sent as submitwork response.")
  let some accepted := items.head?.bind Json.asBool?
    | throw (.protocol "Non-boolean sent as submitwork response.")
  let some reason := (items.drop 1).head?.bind Json.asString?
    | throw (.protocol "Non-string sent as submitwork response.")
  return { accepted, reason }

end HeaderMiner
