import HeaderMiner.Json.Expected
import HeaderMiner.Target
/-!
# Targets in JSON

A target is written as a string of 64 digits, and read from such a string.
-/

namespace HeaderMiner.Target

/-- the target of a JSON string, or the wording of what is wrong with the value -/
def ofJson (v : Json) : Except String Target := do
  let s ← v.expectString
  (ofHex s).mapError Error.message

def toJson (t : Target) : Json := .string t.toHex

end HeaderMiner.Target
