import HeaderMiner.Settings.CommandLine
import HeaderMiner.Settings.File
import HeaderMiner.Url.Url
/-!
# Loading settings

Options that are given, on the command line or in the environment, stand as they are; if a
configuration file is named, all others are taken from it.  Only the result of this is checked: the
URL of the node, the poll interval, the command of a solver and the pinned device, in this order.
-/

namespace HeaderMiner

namespace Settings

/-! ## what settings mean -/

/-- the port of the node, the network's own if none is set -/
def rpcPort (c : Settings) : Nat :=
  match (c .port : Option UInt16) with
  | some p => p.toNat
  | none => (c .network : Network).rpcPort

def rpcUrl (c : Settings) : String :=
  (if (c .ssl : Bool) then "https" else "http") ++ "://" ++ (c .host : String) ++ ":"
    ++ toString c.rpcPort ++ "/"

def params (c : Settings) : Params :=
  match (c .backend : BackendType) with
  | .cpu => .nonce ⟨c .nonce, c .range, c .grids, c .blocks, c .threads⟩
  | .external => .cycle ⟨c .threads, c .trims⟩

def httpTimeout (c : Settings) : Duration := .ofMillis (c .httpTimeout)

def device (c : Settings) : Option Nat := (c .device : Option UInt32).map UInt32.toNat

/-- the number of devices; the CPU backend has one on each core if none is set -/
def devices (c : Settings) (cores : Nat) : Nat :=
  let n := (c .deviceCount : UInt32).toNat
  match (c .backend : BackendType) with
  | .cpu => if n = 0 then cores else n
  | .external => max n 1

/-- the backend of the settings, with nothing to do yet -/
def newBackend (c : Settings) (cores : Nat) : Backend where
  type := c .backend
  devices := c.devices cores

/-- makes the backend of the settings; a solver needs a command -/
def makeBackend (c : Settings) (cores : Nat) : Except Error Backend :=
  match (c .backend : BackendType), (c .externalCommand : Option String) with
  | .external, none => .error (.config "external backend requires --external-command")
  | _, _ => .ok (c.newBackend cores)

/-! ## checks -/

def hasCommand (c : Settings) : Bool :=
  match (c .externalCommand : Option String) with
  | some s => !(Text.trim s.toList).isEmpty
  | none => false

def validate (c : Settings) : Except Error Unit := do
  if let .error f := Url.parse c.rpcUrl then throw (.config ("Invalid node URL: " ++ f.message))
  if (c .pollInterval : Duration).isZero then
    throw (.config "Poll interval must be greater than 0")
  if (c .backend : BackendType) = .external && !c.hasCommand then
    throw (.config "The external backend requires --external-command")
  if let some d := (c .device : Option UInt32) then
    let n : UInt32 := c .deviceCount
    if n ≠ 0 && n ≤ d then
      throw (.config ("Device " ++ toString d ++ " is out of range for " ++ toString n ++ " devices"))

end Settings

/-! ## loading -/

inductive LoadFault where
  | refused (r : Refusal)
  | failed (e : Error)
deriving DecidableEq, Repr

/-- what settings are loaded from -/
structure Sources where
  /-- the arguments behind the name of the program -/
  arguments : List String
  environment : String → Option String := fun _ => none
  /-- the text of a file -/
  file : String → Except FileFault String := fun _ => .error .missing

structure Loaded where
  settings : Settings
  /-- whether they are to be printed instead of used -/
  printConfig : Bool

/-- the values of the options that are given, and those of a file for all others -/
def Options.merge (o : Options) (file : Settings) : Settings := fun s =>
  if o.isGiven s.key then o.values s else file s

namespace Sources

def readFile (s : Sources) (path : String) : Except Error Settings :=
  match s.file path with
  | .ok text => Settings.ofFile path text
  | .error f => .error (.io f.message)

/-- the settings of options, with those of a configuration file if one is named -/
def join (s : Sources) (o : Options) (path : Option String) : Except Error Settings :=
  match path with
  | none => .ok o.values
  | some p => (s.readFile p).map o.merge

def load (s : Sources) : Except LoadFault Loaded := do
  let line ← (CommandLine.read s.arguments).mapError LoadFault.refused
  let options ← (line.options s.environment).mapError LoadFault.refused
  let settings ← (s.join options line.configFile).mapError LoadFault.failed
  settings.validate.mapError LoadFault.failed
  return ⟨settings, line.printConfig⟩

end Sources

end HeaderMiner
