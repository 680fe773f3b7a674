import HeaderMiner.Json.Reader
import HeaderMiner.Json.Writer
import HeaderMiner.Settings.Setting
import HeaderMiner.Yaml.Writer
/-!
# Settings in files

A configuration file is a mapping from the keys of settings to their values, in YAML or in JSON.
Keys of nothing are ignored, keys of settings may come once.  A JSON file may also list the values
alone, in the order of the settings.  Settings that a file leaves out have a value for that, which
is the setting's own or that of its kind.
-/

namespace HeaderMiner

/-! ## values in JSON -/

namespace Json

def Tree.string? : Tree → Option String
  | .scalar (some (.string s)) => some s
  | _ => none

/-- the natural number of a tree, if it is below a bound -/
def Tree.natural? (bound : Nat) : Tree → Option Nat
  | .scalar (some (.natural n)) => if n < bound then some n else none
  | _ => none

/-- a name, alone or as the key of a null -/
def Tree.name? : Tree → Option String
  | .scalar (some (.string s)) => some s
  | .object [(s, .scalar (some .null))] => some s
  | _ => none

end Json

namespace Kind

def ofJson? : (k : Kind) → Json.Tree → Option k.Value
  | .network, t => t.name?.bind Network.ofName?
  | .backend, t => t.string?.bind fun s => (BackendType.parse s).toOption
  | .port, t => (t.natural? (2 ^ 16)).map UInt16.ofNat
  | .word, t => (t.natural? (2 ^ 32)).map UInt32.ofNat
  | .long, t => (t.natural? (2 ^ 64)).map UInt64.ofNat
  | .flag, t => match t with
    | .scalar (some (.bool b)) => some b
    | _ => none
  | .text, t | .path, t => t.string?
  | .texts, t => match t with
    | .array items => items.mapM Json.Tree.string?
    | _ => none
  | .duration, t => t.string?.bind Duration.parse?
  | .level, t => t.name?.bind Log.Level.ofName?
  | .form, t => t.name?.bind Log.Form.ofName?
  | .optional k, t => match t with
    | .scalar (some .null) => some none
    | t => (k.ofJson? t).map some

def toJson : (k : Kind) → k.Value → Json
  | .network, n => .string (Network.name n)
  | .backend, b => .string (BackendType.name b)
  | .port, n => .natural (UInt16.toNat n)
  | .word, n => .natural (UInt32.toNat n)
  | .long, n => .natural (UInt64.toNat n)
  | .flag, b => .bool b
  | .text, s | .path, s => .string s
  | .texts, l => .array (List.map Json.string l)
  | .duration, d => .string (Duration.text d)
  | .level, l => .string (Log.Level.name l)
  | .form, f => .string (Log.Form.name f)
  | .optional k, v => match v with
    | none => .null
    | some v => k.toJson v

end Kind

/-! ## values in YAML -/

namespace Yaml

/-- the text of a scalar of any style -/
def Node.text? : Node → Option String
  | .scalar _ _ s => some s
  | _ => none

/-- the text of a plain scalar, or of a literal block whose tag says what it is -/
def Node.literal? (tag : String) : Node → Option String
  | .scalar .plain _ s => some s
  | .scalar .literal (some t) s => if t = tag then some s else none
  | _ => none

/-- the number of a scalar, if it is below a bound -/
def Node.natural? (bound : Nat) (n : Node) : Option Nat :=
  (n.literal? "tag:yaml.org,2002:int").bind (Plain.bounded? bound)

/-- a name, alone or as the tag of a missing value -/
def Node.name? : Node → Option String
  | .scalar style (some tag) s =>
    match tag.toList with
    | '!' :: name =>
      if style = .plain ∧ (s.isEmpty ∨ Plain.isNull s) then some (String.ofList name) else none
    | _ => some s
  | .scalar _ none s => some s
  | _ => none

/-- whether a node stands for a missing value, `none` if its tag says so and its text does not -/
def Node.isMissing? : Node → Option Bool
  | .scalar .plain none s => some (s.isEmpty || Plain.isNull s)
  | .scalar .plain (some tag) s =>
    if tag = "tag:yaml.org,2002:null" then (if Plain.isNull s then some true else none)
    else some false
  | _ => some false

/-- whether a node is a missing collection -/
def Node.isEmptyPlain : Node → Bool
  | .scalar .plain _ s => s.isEmpty
  | _ => false

end Yaml

namespace Kind

def ofYaml? : (k : Kind) → Yaml.Node → Option k.Value
  | .network, n => n.name?.bind Network.ofName?
  | .backend, n => n.text?.bind fun s => (BackendType.parse s).toOption
  | .port, n => (n.natural? (2 ^ 16)).map UInt16.ofNat
  | .word, n => (n.natural? (2 ^ 32)).map UInt32.ofNat
  | .long, n => (n.natural? (2 ^ 64)).map UInt64.ofNat
  | .flag, n => (n.literal? "tag:yaml.org,2002:bool").bind Yaml.Plain.bool?
  | .text, n | .path, n => n.text?
  | .texts, n => match n with
    | .sequence items => items.mapM Yaml.Node.text?
    | n => if n.isEmptyPlain then some [] else none
  | .duration, n => n.text?.bind Duration.parse?
  | .level, n => n.name?.bind Log.Level.ofName?
  | .form, n => n.name?.bind Log.Form.ofName?
  | .optional k, n => do
    if ← n.isMissing? then return none
    else (k.ofYaml? n).map some

def toYaml : (k : Kind) → k.Value → Yaml.Node
  | .network, n => .text (Network.name n)
  | .backend, b => .text (BackendType.name b)
  | .port, n => .plain (toString (UInt16.toNat n))
  | .word, n => .plain (toString (UInt32.toNat n))
  | .long, n => .plain (toString (UInt64.toNat n))
  | .flag, b => .plain (if b then "true" else "false")
  | .text, s | .path, s => .text s
  | .texts, l => .sequence (List.map Yaml.Node.text l)
  | .duration, d => .text (Duration.text d)
  | .level, l => .text (Log.Level.name l)
  | .form, f => .text (Log.Form.name f)
  | .optional k, v => match v with
    | none => .plain "null"
    | some v => k.toYaml v

end Kind

/-! ## files -/

namespace Given

/-- adds a member of a file, where `read` reads its value -/
def addMember {α : Type} (read : (k : Kind) → α → Option k.Value) (g : Given) (key : String) (a : α) :
    Option Given :=
  match Setting.ofKey? key with
  | none => some g
  | some s => if (g s).isSome then none else (read s.kind a).map (g.set s)

/-- adds the value of the next setting of a list -/
def addItem (g : Given) (s : Setting) (t : Json.Tree) : Option Given :=
  (s.kind.ofJson? t).map (g.set s)

def ofJson? : Json.Tree → Option Given
  | .object members => members.foldlM (fun g m => g.addMember Kind.ofJson? m.1 m.2) empty
  | .array items =>
    if items.length ≤ Setting.all.length then
      (Setting.all.zip items).foldlM (fun g m => g.addItem m.1 m.2) empty
    else none
  | _ => none

def ofYaml? : Yaml.Node → Option Given
  | .mapping members =>
    members.foldlM (fun g m => m.1.text?.bind fun key => g.addMember Kind.ofYaml? key m.2) empty
  | n => if n.isEmptyPlain then some empty else none

end Given

/-- why a file cannot be read as text -/
inductive FileFault where
  | missing
  | isDirectory
  /-- a part of the path is a file -/
  | notDirectory
  | notText
  | other (message : String)
deriving DecidableEq, Repr

def FileFault.message : FileFault → String
  | missing => "No such file or directory (os error 2)"
  | isDirectory => "Is a directory (os error 21)"
  | notDirectory => "Not a directory (os error 20)"
  | notText => "stream did not contain valid UTF-8"
  | other message => message

/-- the last name of a path -/
def fileName (path : String) : List Char :=
  let backward := path.toList.reverse.dropWhile (· = '/')
  (backward.takeWhile (· ≠ '/')).reverse

/-- whether a path names a JSON file: the part of its last name behind the last point says so, where
a point in front of the name does not count -/
def isJsonPath (path : String) : Bool :=
  match (fileName path).reverse with
  | 'n' :: 'o' :: 's' :: 'j' :: '.' :: _ :: _ => true
  | _ => false

/-- the value of a setting of a kind that a file leaves out, where the setting has none of its own -/
def Kind.unlisted? : (k : Kind) → Option k.Value
  | .port => some (0 : UInt16)
  | .word => some (0 : UInt32)
  | .long => some (0 : UInt64)
  | .flag => some false
  | .text | .path => some ""
  | .texts => some ([] : List String)
  | .optional k => some (none : Option k.Value)
  | .network | .backend | .duration | .level | .form => none

/-- the value of a setting that a file leaves out -/
def Setting.unlisted? : (s : Setting) → Option s.Value
  | .network => some Network.main
  | .backend => some BackendType.cpu
  | .range => some (16777216 : UInt32)
  | .externalTimeout => some (300 : UInt64)
  | .host => some "localhost"
  | .user => some "hnsrpc"
  | .pollInterval => some (Duration.ofSeconds 3)
  | .httpTimeout => some (30000 : UInt64)
  | .logLevel => some Log.Level.info
  | .logFormat => some Log.Form.plain
  | s => s.kind.unlisted?

def Given.ofText? (path text : String) : Option Given :=
  if isJsonPath path then (Json.Tree.parse? text).bind ofJson?
  else (Yaml.Node.parse? text).bind ofYaml?

def Settings.ofFile (path text : String) : Except Error Settings :=
  match (Given.ofText? path text).bind (Given.fill? Setting.unlisted?) with
  | some c => .ok c
  | none =>
    .error (if isJsonPath path then .json "bad configuration" else .yaml "bad configuration")

/-! ## printing -/

def Settings.members (c : Settings) : List (String × Yaml.Node) :=
  Setting.all.map fun s => (s.key, s.kind.toYaml (c s))

/-- the configuration in YAML, every setting in its place -/
def Settings.text (c : Settings) : String := Yaml.recordText c.members

def Settings.toJson (c : Settings) : Json :=
  .ofMembers (Setting.all.map fun s => (s.key, s.kind.toJson (c s)))

end HeaderMiner
