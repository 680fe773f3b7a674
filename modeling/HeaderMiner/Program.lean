import HeaderMiner.Settings.Load
/-!
# Starting the program

What a start of the program comes to before anything is mined: a text and an exit code, or settings
to mine with.
-/

namespace HeaderMiner.Program

def name : String := "hs-mining-client"

def version : String := "0.5.0"

/-! ## reports -/

/-- what lies behind an error, if it only passes that on -/
def cause? : Error → Option String
  | .http why | .json why | .yaml why | .io why => some why
  | _ => none

/-- an error with all that lies behind it, numbered if that is more than one thing -/
def report (context : Option String) (e : Error) : String :=
  let lines := context.toList ++ e.message :: (cause? e).toList
  let numbered := lines.tail.zipIdx.map fun p => "    " ++ toString p.2 ++ ": " ++ p.1
  let causes := match lines.tail with
    | [] => []
    | [c] => ["", "Caused by:", "    " ++ c]
    | _ => "" :: "Caused by:" :: numbered
  String.intercalate "\n" (("Error: " ++ lines.headD "") :: causes) ++ "\n"

def shown : Switch → String
  | .setting s =>
    let name := Switch.settingName s
    if s.kind = .flag then "--" ++ name
    else "--" ++ name ++ " <" ++ String.ofList (s.key.toList.map Char.toUpper) ++ ">"
  | .configFile => "--config-file <FILE>"
  | .printConfig => "--print-config"
  | .help => "--help"
  | .version => "--version"

def reason : Refusal → String
  | .help | .version => ""
  | .unknown a => "unexpected argument '" ++ a ++ "' found"
  | .repeated o => "the argument '" ++ shown o ++ "' cannot be used multiple times"
  | .missingValue o => "a value is required for '" ++ shown o ++ "' but none was supplied"
  | .badValue o v => "invalid value '" ++ v ++ "' for '" ++ shown o ++ "'"
  | .needlessValue o => "unexpected value for '" ++ shown o ++ "' found; no more were expected"
  | .badVariable n v => "invalid value '" ++ v ++ "' in the variable '" ++ n ++ "'"
  | .incomplete => "an option that needs a value has none"

def usage : String := "Usage: " ++ name ++ " [OPTIONS]\n"

def helpText : String :=
  let switches := Switch.printConfig :: .configFile :: Setting.all.map .setting ++ [.help, .version]
  "Handshake Mining Client\n\n" ++ usage ++ "\nOptions:\n"
    ++ String.join (switches.map fun o => "      " ++ shown o ++ "\n")

def refusalText (r : Refusal) : String :=
  "error: " ++ reason r ++ "\n\n" ++ usage ++ "\nFor more information, try '--help'.\n"

/-! ## the log file -/

/-- a path cut into its directory and its last name, unless it has none -/
def splitPath (path : String) : Option (String × String) :=
  let last := fileName path
  if last.isEmpty ∨ last = ['.'] ∨ last = ['.', '.'] then none
  else
    let front := (path.toList.reverse.dropWhile (· = '/')).drop last.length
    let directory := if front.length = 1 then front else front.dropWhile (· = '/')
    some (if directory.isEmpty then "." else String.ofList directory.reverse, String.ofList last)

/-- makes sure that the directory of a log file is there -/
def openLog (makeDirectory : String → Except FileFault Unit) (path : Option String) :
    Except Error Unit :=
  match path with
  | none => .ok ()
  | some p =>
    match splitPath p with
    | none => .error (.config ("Invalid log file: " ++ p))
    | some (directory, _) => (makeDirectory directory).mapError fun f => .io f.message

/-! ## the start -/

inductive Start where
  | exit (code : Nat) (output errors : String)
  | mine (c : Settings)

def start (s : Sources) (makeDirectory : String → Except FileFault Unit) : Start :=
  match s.load with
  | .error (.refused .help) => .exit 0 helpText ""
  | .error (.refused .version) => .exit 0 (name ++ " " ++ version ++ "\n") ""
  | .error (.refused r) => .exit 2 "" (refusalText r)
  | .error (.failed e) => .exit 1 "" (report none e)
  | .ok l =>
    if l.printConfig then .exit 0 (l.settings.text ++ "\n") ""
    else
      match openLog makeDirectory (l.settings .logFile : Option String) with
      | .error e => .exit 1 "" (report (some "initializing logging") e)
      | .ok () => .mine l.settings

end HeaderMiner.Program
