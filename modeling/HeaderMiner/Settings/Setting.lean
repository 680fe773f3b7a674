import HeaderMiner.Duration
import HeaderMiner.Log
import HeaderMiner.Network
import HeaderMiner.Worker.Backend
/-!
# Settings

What a user can set, each setting with its name, the kind of its values and its built-in value.
A full choice is `Settings`, a partial one is `Given`.
-/

namespace HeaderMiner

/-- the kinds of values that settings have -/
inductive Kind where
  | network
  | backend
  /-- a 16-bit number -/
  | port
  /-- a 32-bit number -/
  | word
  /-- a 64-bit number -/
  | long
  | flag
  | text
  /-- the path of a file -/
  | path
  | texts
  | duration
  | level
  | form
  /-- a value that may be missing -/
  | optional (k : Kind)
deriving DecidableEq, Repr

abbrev Kind.Value : Kind → Type
  | network => Network
  | backend => BackendType
  | port => UInt16
  | word => UInt32
  | long => UInt64
  | flag => Bool
  | text => String
  | path => String
  | texts => List String
  | duration => Duration
  | level => Log.Level
  | form => Log.Form
  | optional k => Option k.Value

/-- the settings, in the order of a printed configuration -/
inductive Setting where
  /-- the network that the node is expected to serve -/
  | network
  | backend
  /-- the first nonce of a nonce search -/
  | nonce
  /-- the number of nonces of a worker and round, where zero stands for all of them -/
  | range
  | grids
  | blocks
  | threads
  /-- the trimming rounds of a cycle search -/
  | trims
  /-- the only device to mine on -/
  | device
  /-- the number of devices, where zero stands for one on each core -/
  | deviceCount
  /-- the program of an external solver -/
  | externalCommand
  | externalArgs
  /-- the seconds that a solver may take -/
  | externalTimeout
  /-- whether the node is spoken to over TLS -/
  | ssl
  | host
  /-- the port of the node, if it is not the network's own -/
  | port
  | user
  | pass
  /-- the pause between two requests for work -/
  | pollInterval
  /-- the milliseconds that an answer of the node may take -/
  | httpTimeout
  | logLevel
  | logFormat
  /-- the file that logs also go to -/
  | logFile
deriving DecidableEq, Repr

namespace Setting

def all : List Setting :=
  [network, backend, nonce, range, grids, blocks, threads, trims, device, deviceCount,
   externalCommand, externalArgs, externalTimeout, ssl, host, port, user, pass, pollInterval,
   httpTimeout, logLevel, logFormat, logFile]

theorem mem_all (s : Setting) : s ∈ all := by
  cases s <;> decide

instance {p : Setting → Prop} [DecidablePred p] : Decidable (∀ s, p s) :=
  decidable_of_iff (∀ s ∈ all, p s) ⟨fun h s => h s (mem_all s), fun h s _ => h s⟩

/-- the key of a setting in a configuration file -/
def key : Setting → String
  | network => "network"
  | backend => "backend"
  | nonce => "nonce"
  | range => "range"
  | grids => "grids"
  | blocks => "blocks"
  | threads => "threads"
  | trims => "trims"
  | device => "device"
  | deviceCount => "device_count"
  | externalCommand => "external_command"
  | externalArgs => "external_args"
  | externalTimeout => "external_timeout"
  | ssl => "ssl"
  | host => "host"
  | port => "port"
  | user => "user"
  | pass => "pass"
  | pollInterval => "poll_interval"
  | httpTimeout => "http_timeout"
  | logLevel => "log_level"
  | logFormat => "log_format"
  | logFile => "log_file"

def ofKey? (k : String) : Option Setting := all.find? fun s => s.key == k

abbrev kind : Setting → Kind
  | network => .network
  | backend => .backend
  | nonce | range | grids | blocks | threads | trims | deviceCount => .word
  | device => .optional .word
  | externalCommand => .optional .text
  | externalArgs => .texts
  | externalTimeout | httpTimeout => .long
  | ssl => .flag
  | host | user | pass => .text
  | port => .optional .port
  | pollInterval => .duration
  | logLevel => .level
  | logFormat => .form
  | logFile => .optional .path

abbrev Value (s : Setting) : Type := s.kind.Value

def builtIn : (s : Setting) → s.Value
  | network => Network.main
  | backend => BackendType.cpu
  | nonce => (0 : UInt32)
  | range => (16777216 : UInt32)
  | grids => (0 : UInt32)
  | blocks => (0 : UInt32)
  | threads => (0 : UInt32)
  | trims => (0 : UInt32)
  | device => (none : Option UInt32)
  | deviceCount => (0 : UInt32)
  | externalCommand => (none : Option String)
  | externalArgs => ([] : List String)
  | externalTimeout => (300 : UInt64)
  | ssl => false
  | host => "localhost"
  | port => (none : Option UInt16)
  | user => "hnsrpc"
  | pass => ""
  | pollInterval => Duration.ofSeconds 3
  | httpTimeout => (30000 : UInt64)
  | logLevel => Log.Level.info
  | logFormat => Log.Form.plain
  | logFile => (none : Option String)

theorem ofKey?_key (s : Setting) : ofKey? s.key = some s := by
  cases s <;> rfl

end Setting

/-- a value for every setting -/
def Settings : Type := (s : Setting) → s.Value

/-- values for some settings -/
def Given : Type := (s : Setting) → Option s.Value

namespace Given

def empty : Given := fun _ => none

def set (g : Given) (s : Setting) (v : s.Value) : Given := fun t =>
  if h : s = t then some (h ▸ v) else g t

/-- the settings of a choice, with the built-in value where it has none -/
def complete (g : Given) : Settings := fun s => (g s).getD s.builtIn

/-- the settings of a choice, with a value of a table where it has none, if there is one for each -/
def fill? (table : (s : Setting) → Option s.Value) (g : Given) : Option Settings :=
  if h : ∀ s, ((g s).or (table s)).isSome then some fun s => ((g s).or (table s)).get (h s)
  else none

@[simp] theorem set_self (g : Given) (s : Setting) (v : s.Value) : g.set s v s = some v := by
  simp [set]

theorem set_of_ne (g : Given) {s t : Setting} (v : s.Value) (h : s ≠ t) : g.set s v t = g t := by
  simp [set, h]

end Given

end HeaderMiner
