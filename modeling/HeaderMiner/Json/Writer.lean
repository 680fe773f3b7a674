import HeaderMiner.Json.Number
/-!
# Writing JSON

The compact text of a value: no blanks, members in the order of the object, control characters
escaped and every other character as it is.
-/

namespace HeaderMiner.Json

def escapeChar (c : Char) : List Char :=
  if c = '"' then ['\\', '"']
  else if c = '\\' then ['\\', '\\']
  else if c = '\x08' then ['\\', 'b']
  else if c = '\x0c' then ['\\', 'f']
  else if c = '\n' then ['\\', 'n']
  else if c = '\r' then ['\\', 'r']
  else if c = '\t' then ['\\', 't']
  else if c.toNat < 0x20 then
    ['\\', 'u', '0', '0', Nat.digitChar (c.toNat / 16), Nat.digitChar (c.toNat % 16)]
  else [c]

def stringText (s : String) : String :=
  String.ofList ('"' :: s.toList.flatMap escapeChar ++ ['"'])

mutual

/-- the compact text of a value -/
def text : Json → String
  | .null => "null"
  | .bool b => if b then "true" else "false"
  | .natural n => toString n
  | .negative n => toString n
  | .double x => doubleText x
  | .string s => stringText s
  | .array items => "[" ++ String.intercalate "," (itemTexts items) ++ "]"
  | .object members => "\x7b" ++ String.intercalate "," (memberTexts members) ++ "\x7d"

def itemTexts : List Json → List String
  | [] => []
  | v :: vs => text v :: itemTexts vs

def memberTexts : List (String × Json) → List String
  | [] => []
  | (k, v) :: ms => (stringText k ++ ":" ++ text v) :: memberTexts ms

end

end HeaderMiner.Json
