import HeaderMiner.Json.Number
import HeaderMiner.Text.Quoted
/-!
# Typed parts of JSON values

Reading a value where one type is expected, with a fault that describes what is there instead.
Among the members of an object the first wrong type in the order of keys is reported, and a missing
member only if no type is wrong.
-/

namespace HeaderMiner.Json

/-- what a value is, in a fault about its type -/
def described : Json → String
  | .null => "null"
  | .bool b => "boolean `" ++ (if b then "true" else "false") ++ "`"
  | .natural n => "integer `" ++ toString n ++ "`"
  | .negative n => "integer `" ++ toString n ++ "`"
  | .double x => "floating point `" ++ doubleText x ++ "`"
  | .string s => "string " ++ Text.quoted s
  | .array _ => "sequence"
  | .object _ => "map"

/-- a string, or the fault of a value that is none -/
def expectString : Json → Except String String
  | .string s => .ok s
  | v => .error ("invalid type: " ++ v.described ++ ", expected a string")

def missing (key : String) : String := "missing field `" ++ key ++ "`"

/-- checks that those members whose keys are listed are strings, in the order of the members -/
def checkStrings (keys : List String) : List (String × Json) → Except String Unit
  | [] => .ok ()
  | (k, v) :: rest => do
    if keys.contains k then discard (expectString v)
    checkStrings keys rest

def stringAt (members : List (String × Json)) (key : String) : Except String String :=
  match lookup key members with
  | some v => expectString v
  | none => .error (missing key)

def valueAt (members : List (String × Json)) (key : String) : Except String Json :=
  match lookup key members with
  | some v => .ok v
  | none => .error (missing key)

end HeaderMiner.Json
