import HeaderMiner.Power
import HeaderMiner.Settings.Setting
/-!
# The command line

Arguments are taken from left to right.  An option's value is the rest of its own argument or the
whole next one, which may then not look like an option; only the arguments of a solver may.  Every
option may be given once, those arguments any number of times.

An option that is not given takes its value from the environment if it has a variable there, and
otherwise from a text of its own, which is read like a given one; what matters later is that such a
value has not been given (`Options.isGiven`).
-/

namespace HeaderMiner

/-- the value of an argument, where `texts` takes one text at a time and a flag takes none -/
def Kind.ofArgument? : (k : Kind) → String → Option k.Value
  | .network, s => Network.ofName? s
  | .backend, s => (BackendType.parse s).toOption
  | .port, s => (signless? (2 ^ 16) s.toList).map UInt16.ofNat
  | .word, s => (signless? (2 ^ 32) s.toList).map UInt32.ofNat
  | .long, s => (Text.natural (2 ^ 64) s.toList).toOption.map UInt64.ofNat
  | .flag, _ => none
  | .text, s => some s
  | .path, s => if s.isEmpty then none else some s
  | .texts, s => some [s]
  | .duration, s => Duration.parse? s
  | .level, s => Log.Level.ofName? s
  | .form, s => Log.Form.ofName? s
  | .optional k, s => (k.ofArgument? s).map some
where
  /-- a number below a bound, which may be a zero with a minus sign -/
  signless? (bound : Nat) : List Char → Option Nat
    | '-' :: r => if !r.isEmpty && r.all (· == '0') then some 0 else none
    | cs => (Text.natural bound cs).toOption

/-- what an option sets -/
inductive Switch where
  | setting (s : Setting)
  /-- the file that settings are read from -/
  | configFile
  /-- whether the settings are printed instead of used -/
  | printConfig
  | help
  | version
deriving DecidableEq, Repr

namespace Switch

def settingName (s : Setting) : String :=
  if s = .externalArgs then "external-arg"
  else String.ofList (s.key.toList.map fun c => if c = '_' then '-' else c)

def ofName? (name : String) : Option Switch :=
  if name = "config-file" then some configFile
  else if name = "print-config" then some printConfig
  else if name = "help" then some help
  else if name = "version" then some version
  else (Setting.all.find? fun s => settingName s == name).map setting

def ofLetter? : Char → Option Switch
  | 'n' => some (setting .network)
  | 'b' => some (setting .backend)
  | 'r' => some (setting .range)
  | 't' => some (setting .threads)
  | 'd' => some (setting .device)
  | 'c' => some (setting .deviceCount)
  | 'p' => some (setting .port)
  | 'u' => some (setting .user)
  | 'k' => some (setting .pass)
  | 'l' => some (setting .logLevel)
  | 'h' => some help
  | 'V' => some version
  | _ => none

def takesValue : Switch → Bool
  | setting s => s.kind != .flag
  | configFile => true
  | _ => false

/-- whether the value of a switch may look like an option -/
def takesAnything (o : Switch) : Bool := o = setting .externalArgs

end Switch

/-- why a command line sets nothing -/
inductive Refusal where
  | help
  | version
  | unknown (argument : String)
  | repeated (o : Switch)
  | missingValue (o : Switch)
  | badValue (o : Switch) (value : String)
  /-- a value for an option that takes none -/
  | needlessValue (o : Switch)
  /-- a bad value in the environment -/
  | badVariable (name value : String)
  /-- an option that has no value, although it needs one -/
  | incomplete
deriving DecidableEq, Repr

/-- what a command line asks for -/
structure CommandLine where
  given : Given := Given.empty
  configFile : Option String := none
  printConfig : Bool := false

namespace CommandLine

/-- a command line read so far -/
structure Reader where
  result : CommandLine := {}
  /-- the option that still waits for its value -/
  pending : Option Switch := none
  /-- whether the mark `--` has been met, behind which nothing may stand -/
  closed : Bool := false

def assign (l : CommandLine) (o : Switch) (value : String) : Except Refusal CommandLine :=
  match o with
  | .setting .externalArgs =>
    let args : List String := (l.given .externalArgs).getD []
    .ok { l with given := l.given.set .externalArgs (args ++ [value]) }
  | .setting s =>
    match s.kind.ofArgument? value with
    | none => .error (.badValue o value)
    | some v =>
      if (l.given s).isSome then .error (.repeated o) else .ok { l with given := l.given.set s v }
  | .configFile =>
    if value.isEmpty then .error (.badValue o value)
    else if l.configFile.isSome then .error (.repeated o)
    else .ok { l with configFile := some value }
  | o => .error (.needlessValue o)

/-- follows an option without a value -/
def raise (l : CommandLine) (o : Switch) : Except Refusal CommandLine :=
  match o with
  | .setting .ssl =>
    if (l.given .ssl).isSome then .error (.repeated o)
    else .ok { l with given := l.given.set .ssl true }
  | .printConfig =>
    if l.printConfig then .error (.repeated o) else .ok { l with printConfig := true }
  | .help => .error .help
  | .version => .error .version
  | o => .error (.missingValue o)

namespace Reader

/-- follows an option, with the value in its own argument if there is one -/
def follow (r : Reader) (o : Switch) (value : Option String) : Except Refusal Reader :=
  match r.pending with
  | some p => .error (.missingValue p)
  | none =>
    if o.takesValue then
      match value with
      | some v => do return { r with result := ← r.result.assign o v }
      | none => .ok { r with pending := some o }
    else
      match value with
      | some _ => .error (.needlessValue o)
      | none => do return { r with result := ← r.result.raise o }

/-- takes a value for the option that waits for one -/
def take (r : Reader) (value : String) : Except Refusal Reader :=
  match r.pending with
  | some o => do return { r with result := ← r.result.assign o value, pending := none }
  | none => .error (.unknown value)

/-- a long option and the value behind its equals sign -/
def splitName (cs : List Char) : String × Option String :=
  let name := cs.takeWhile (· ≠ '=')
  match cs.dropWhile (· ≠ '=') with
  | [] => (String.ofList name, none)
  | _ :: v => (String.ofList name, some (String.ofList v))

/-- the value behind a letter, with or without an equals sign -/
def attached : List Char → Option String
  | [] => none
  | '=' :: v => some (String.ofList v)
  | v => some (String.ofList v)

def step (r : Reader) (argument : String) : Except Refusal Reader :=
  if r.closed then .error (.unknown argument)
  else if r.pending.any Switch.takesAnything then r.take argument
  else
    match argument.toList with
    | ['-', '-'] =>
      match r.pending with
      | some p => .error (.missingValue p)
      | none => .ok { r with closed := true }
    | '-' :: '-' :: cs =>
      let (name, value) := splitName cs
      match Switch.ofName? name with
      | some o => r.follow o value
      | none => .error (.unknown argument)
    | '-' :: c :: cs =>
      match Switch.ofLetter? c with
      | some o => r.follow o (if o.takesValue then attached cs else none)
      | none => .error (.unknown argument)
    | _ => r.take argument

end Reader

/-- what the arguments behind the program's name ask for -/
def read (arguments : List String) : Except Refusal CommandLine := do
  let r ← arguments.foldlM Reader.step {}
  match r.pending with
  | some o => .error (.missingValue o)
  | none => .ok r.result

end CommandLine

/-! ## the environment -/

def Setting.variable? : Setting → Option String
  | .network => some "HS_NETWORK"
  | .pass => some "HS_RPC_PASS"
  | _ => none

/-- adds the value of a setting's variable, unless the setting has a value already -/
def Given.addVariable (environment : String → Option String) (g : Given) (s : Setting) :
    Except Refusal Given :=
  if (g s).isSome then .ok g
  else
    match s.variable? with
    | none => .ok g
    | some name =>
      match environment name with
      | none => .ok g
      | some text =>
        match s.kind.ofArgument? text with
        | some v => .ok (g.set s v)
        | none => .error (.badVariable name text)

/-- adds the values of all variables to those of the command line -/
def Given.addEnvironment (environment : String → Option String) (g : Given) : Except Refusal Given :=
  Setting.all.foldlM (addVariable environment) g

/-! ## options that are not given -/

/-- the text that stands for the value of an option that is not given -/
def Setting.defaultText? : Setting → Option String
  | .network => some "main"
  | .backend => some "cpu"
  | .nonce | .grids | .blocks | .threads | .trims | .deviceCount => some "0"
  | .range => some "16777216"
  | .externalTimeout => some "300"
  | .host => some "localhost"
  | .user => some "hnsrpc"
  | .pass => some ""
  | .pollInterval => some "3s"
  | .httpTimeout => some "30000"
  | .logLevel => some "info"
  | .logFormat => some "plain"
  | .device | .externalCommand | .externalArgs | .ssl | .port | .logFile => none

/-- the value of an option of a kind that is not given and has no text for that -/
def Kind.omitted? : (k : Kind) → Option k.Value
  | .flag => some false
  | .texts => some ([] : List String)
  | .optional k => some (none : Option k.Value)
  | _ => none

/-- the value of an option that is not given -/
def Setting.omitted? (s : Setting) : Option s.Value :=
  match s.defaultText? with
  | some text => s.kind.ofArgument? text
  | none => s.kind.omitted?

inductive Origin where
  | commandLine
  | environment
  /-- the option is not given -/
  | builtIn
deriving DecidableEq, Repr

/-- a value for each option, and where it comes from -/
structure Options where
  values : Settings
  origin : Setting → Origin

namespace Options

/-- where the value of the option of an id comes from, if there is one; the id of an option is the
key of its setting, whatever its name on the command line -/
def origin? (o : Options) (id : String) : Option Origin := (Setting.ofKey? id).map o.origin

/-- whether the option of an id is given, on the command line or in the environment -/
def isGiven (o : Options) (id : String) : Bool :=
  match o.origin? id with
  | some .commandLine | some .environment => true
  | some .builtIn | none => false

end Options

/-- the options of a command line in an environment -/
def CommandLine.options (l : CommandLine) (environment : String → Option String) :
    Except Refusal Options := do
  let given ← l.given.addEnvironment environment
  match given.fill? Setting.omitted? with
  | none => throw .incomplete
  | some values =>
    return {
      values
      origin := fun s =>
        if (l.given s).isSome then .commandLine
        else if (given s).isSome then .environment
        else .builtIn }

end HeaderMiner
