import HeaderMiner.Worker.Backend
/-!
# Sessions with a backend

One caller's dealings with a backend: searches that are waited for, and searches that run in the
background until they are joined.  A background search that is cancelled before it is joined ends
by its cancellation, and otherwise by itself.
-/

namespace HeaderMiner

structure Session where
  backend : Backend
  tokens : Tokens
  /-- the token that all searches of the session hang on -/
  root : Token
  /-- the searches in the background -/
  running : List Invocation := []

namespace Session

def new (type : BackendType) (devices : Nat) : Session :=
  let (root, tokens) := Tokens.root {}
  { backend := { type, devices }, tokens, root }

/-- whether a search looks at its solver before its token, which is left open: here every other device
does -/
def solverFirst (device : Nat) : Bool := device % 2 == 1

/-- the course of a search that is looked at now: cancelled, unless the solver is over and looked at
first, or as its solver goes -/
def course (s : Session) (run : Request → Solver.Run) (i : Invocation) : Backend.Course :=
  let run := run i.request
  if s.tokens.isCancelled i.token then
    let look : Solver.Look := ⟨solverFirst i.request.device, run.atOnce⟩
    { seen := fun _ => true, ending := (look.ending? true).getD .cancelled }
  else { ending := .solver run }

/-- a search that is waited for; `cancelled` cancels the caller's token beforehand -/
def mine (s : Session) (run : Request → Solver.Run) (r : Request) (cancelled : Bool) :
    Except Error Candidate × Session :=
  let (token, tokens) := s.tokens.child s.root
  let tokens := if cancelled then tokens.cancel token else tokens
  match s.backend.begin tokens r token with
  | .error e => (.error e, s)
  | .ok (i, backend, tokens) =>
    let s := { s with backend, tokens }
    let (result, backend) := s.backend.finish i (s.course run i)
    (result, { s with backend })

def start (s : Session) (r : Request) : Except Error Session := do
  let (token, tokens) := s.tokens.child s.root
  let (i, backend, tokens) ← s.backend.begin tokens r token
  return { s with backend, tokens, running := s.running ++ [i] }

/-- waits for the background search of a device, if there is one -/
def join (s : Session) (run : Request → Solver.Run) (device : Nat) :
    Option (Except Error Candidate × Session) :=
  (s.running.find? fun i => i.request.device == device).map fun i =>
    let (result, backend) := s.backend.finish i (s.course run i)
    (result, { s with
      backend, running := s.running.filter fun i => i.request.device != device })

def stop (s : Session) (device : Nat) : Bool × Session :=
  let (found, tokens) := s.backend.registry.stop s.tokens device
  (found, { s with tokens })

def stopAll (s : Session) : Session :=
  { s with tokens := s.backend.registry.stopAll s.tokens }

/-- cancels all searches, running and future -/
def cancel (s : Session) : Session := { s with tokens := s.tokens.cancel s.root }

/-! ## rounds -/

/-- begins a search of a round under a token of its own -/
def beginSearch (s : Session) (r : Request) : Except Error Invocation × Session :=
  let (token, tokens) := s.tokens.child s.root
  match s.backend.begin tokens r token with
  | .error e => (.error e, s)
  | .ok (i, backend, tokens) => (.ok i, { s with backend, tokens })

/-- ends a search of a round, unless it has been refused -/
def endSearch (run : Request → Solver.Run) (s : Session) :
    Except Error Invocation → Except Error Candidate × Session
  | .error e => (.error e, s)
  | .ok i =>
    let (result, backend) := s.backend.finish i (s.course run i)
    (result, { s with backend })

/-- does one thing after the other and gathers what they come back with -/
def each {α β : Type} (act : Session → α → β × Session) (s : Session) : List α → List β × Session
  | [] => ([], s)
  | a :: as =>
    let (b, s) := act s a
    let (bs, s) := each act s as
    (b :: bs, s)

/-- the results of a round's searches, which are all begun before the first one ends -/
def round (s : Session) (run : Request → Solver.Run) (requests : List Request) :
    List (Except Error Candidate) × Session :=
  let (begun, s) := s.each beginSearch requests
  s.each (endSearch run) begun

end Session

end HeaderMiner
