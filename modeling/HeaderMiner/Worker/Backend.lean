import HeaderMiner.Worker.Grind
import HeaderMiner.Worker.Registry
import HeaderMiner.Worker.Solver
/-!
# Backends

A backend runs searches, at most one on each of its devices.  A search begins with checks that
leave no trace when they fail; once it has begun it holds its device until it ends, and however it
ends the device is free again, with the totals changed by what the search has done.
-/

namespace HeaderMiner

/-- the backends there are -/
inductive BackendType where
  /-- grinds nonces on the CPU -/
  | cpu
  /-- runs an external cycle solver -/
  | external
deriving DecidableEq, Repr

namespace BackendType

def name : BackendType → String
  | cpu => "cpu"
  | external => "external"

def parse (s : String) : Except Error BackendType :=
  if s = "cpu" then .ok cpu
  else if s = "external" then .ok external
  else .error (.unsupportedBackend s)

def kind : BackendType → SearchKind
  | cpu => .nonce
  | external => .cycle

end BackendType

/-- a backend and what it is doing -/
structure Backend where
  type : BackendType
  devices : Nat
  registry : Registry := {}
  stats : Stats := {}
deriving DecidableEq

structure Invocation where
  request : Request
  token : Token
deriving DecidableEq

namespace Backend

def accepts (b : Backend) (p : Params) : Bool := b.type == .external || p.kind == .nonce

/-- the checks that a search passes before it asks for its device: the device first, then the
parameters -/
def check (b : Backend) (r : Request) : Except Error Unit := do
  if b.devices ≤ r.device then throw (.noDevice r.device)
  if !b.accepts r.params then throw (.backend "cpu" "cycle parameters are not supported")

/-- begins a search under a caller's token, if it passes the checks and its device is free -/
def begin (b : Backend) (ts : Tokens) (r : Request) (parent : Token) :
    Except Error (Invocation × Backend × Tokens) := do
  b.check r
  let (token, registry, ts) ← b.registry.start ts r.device parent
  return (⟨r, token⟩, { b with registry }, ts)

/-- how a search goes, as far as the backend does not decide it -/
structure Course where
  /-- whether the `i`-th look of a nonce search at its token sees it cancelled -/
  seen : Nat → Bool := fun _ => false
  /-- what decides a solver's search -/
  ending : Solver.Ending := .cancelled

/-- the course of a search that is cancelled from the start -/
def Course.cancelled : Course := { seen := fun _ => true }

/-- the result of a search and what it adds to the totals -/
def conclude (b : Backend) (i : Invocation) (c : Course) : Except Error Candidate × Stats :=
  match b.type, i.request.params with
  | .cpu, .nonce p =>
    let (candidate, stats) := Grind.run i.request.header i.request.target p.nonce p.range c.seen
    (.ok candidate, stats)
  | .cpu, .cycle _ => (.ok .none, {})
  | .external, _ => Solver.conclude i.request c.ending

def finish (b : Backend) (i : Invocation) (c : Course) : Except Error Candidate × Backend :=
  let (result, stats) := b.conclude i c
  (result,
    { b with registry := b.registry.release i.request.device, stats := b.stats.add stats })

/-- a whole search: what is rejected at the start leaves no trace -/
def mine (b : Backend) (ts : Tokens) (r : Request) (parent : Token)
    (course : Invocation → Tokens → Course) : Except Error Candidate × Backend × Tokens :=
  match b.begin ts r parent with
  | .error e => (.error e, b, ts)
  | .ok (i, b, ts) =>
    let (result, b) := b.finish i (course i ts)
    (result, b, ts)

end Backend

end HeaderMiner
