/-!
# Logs

How much is logged, and in which form.
-/

namespace HeaderMiner.Log

/-- the least weight of a message that is logged -/
inductive Level where
  | error
  | warn
  | info
  | debug
  | trace
deriving DecidableEq, Repr

namespace Level

def name : Level → String
  | error => "error"
  | warn => "warn"
  | info => "info"
  | debug => "debug"
  | trace => "trace"

def ofName? (s : String) : Option Level :=
  if s = "error" then some error
  else if s = "warn" then some warn
  else if s = "info" then some info
  else if s = "debug" then some debug
  else if s = "trace" then some trace
  else none

def tag : Level → String
  | error => "ERROR"
  | warn => "WARN"
  | info => "INFO"
  | debug => "DEBUG"
  | trace => "TRACE"

theorem ofName?_name (l : Level) : ofName? l.name = some l := by
  cases l <;> rfl

end Level

inductive Form where
  | plain
  | json
deriving DecidableEq, Repr

namespace Form

def name : Form → String
  | plain => "plain"
  | json => "json"

def ofName? (s : String) : Option Form :=
  if s = "plain" then some plain
  else if s = "json" then some json
  else none

theorem ofName?_name (f : Form) : ofName? f.name = some f := by
  cases f <;> rfl

end Form

end HeaderMiner.Log
