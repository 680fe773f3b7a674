import HeaderMiner.Worker.Backend
import HeaderMiner.Worker.Usage
/-!
# A backend in use

Several callers search with one backend at once.  A search that passes the checks holds its device
from its beginning until it leaves, and in between it takes its turns: a nonce search takes one batch
after the other and looks at its token before each of them, and a search by a solver is looked at until
a look decides it.  What a turn has done is written down in the totals at once.

The turns of different searches come in any order, and in between callers make, cancel and stop what
they like.
-/

namespace HeaderMiner

/-! ## nonce searches by turns -/

/-- the candidate of a nonce search that has ended -/
def Grind.candidate (h : Header) : Option Nat → Candidate
  | some n =>
    { nonce := UInt32.ofNat n, extraNonce := h.extraNonce, proof := none, isMatch := true }
  | none => .noneOn h

/-- a nonce search before its next batch -/
structure Grinder where
  target : Target
  limit : Nat
  hasher : Hasher
  nonce : Nat

namespace Grinder

def ofRequest (r : Request) (p : NonceParams) : Grinder :=
  { target := r.target, limit := Grind.limit p.nonce p.range, hasher := .ofHeader r.header,
    nonce := p.nonce.toNat }

/-- what a batch comes to, with the search behind it unless the search is over; `seen` tells whether
the token is seen cancelled -/
def turn (g : Grinder) (seen : Bool) : Grind.Outcome × Option Grinder :=
  if g.limit ≤ g.nonce then (⟨none, 0⟩, none)
  else if seen then (⟨none, 0⟩, none)
  else
    let size := min Grind.batchSize (g.limit - g.nonce)
    match Grind.scan g.target g.hasher g.nonce size with
    | (some m, _) => (⟨some m, m - g.nonce + 1⟩, none)
    | (none, hasher) => (⟨none, size⟩, some { g with hasher, nonce := g.nonce + size })

end Grinder

/-! ## calls -/

/-- how far a search has come -/
inductive Stage where
  | grinding (g : Grinder)
  | solving
  | decided (result : Except Error Candidate)

/-- a search that has begun -/
structure Call where
  request : Request
  job : Registry.Job
  /-- whether the caller's token was cancelled when it began -/
  stillborn : Bool
  stage : Stage
  /-- what its looks at its token have seen, if it tries nonces -/
  looks : List Bool := []
  /-- the look that has decided it and what it has been decided by, if it runs a solver -/
  last : Option (Solver.Look × Solver.Ending) := none
  /-- what it has added to the totals -/
  added : Stats := {}

namespace Call

def start (type : BackendType) (request : Request) (job : Registry.Job) (stillborn : Bool) : Call :=
  { request, job, stillborn, stage := match type, request.params with
    | .cpu, .nonce p => .grinding (.ofRequest request p)
    | .cpu, .cycle _ => .decided (.ok .none)
    | .external, _ => .solving }

/-- the next batch of a nonce search, with what it adds -/
def batch? (c : Call) (seen : Bool) : Option (Stats × Call) :=
  match c.stage with
  | .grinding g =>
    let (o, rest) := g.turn seen
    let stats : Stats := ⟨o.hashed, if o.nonce.isSome then 1 else 0⟩
    let stage := match rest with
      | some g => .grinding g
      | none => .decided (.ok (Grind.candidate c.request.header o.nonce))
    some (stats, { c with stage, looks := c.looks ++ [seen], added := c.added.add stats })
  | _ => none

/-- a look that decides a search by a solver, with what it adds -/
def look? (c : Call) (l : Solver.Look) (cancelled : Bool) : Option (Stats × Call) :=
  match c.stage, l.ending? cancelled with
  | .solving, some e =>
    let (result, stats) := Solver.conclude c.request e
    some (stats, { c with
      stage := .decided result, last := some (l, e), added := c.added.add stats })
  | _, _ => none

end Call

/-! ## the backend and its callers -/

/-- whether everybody can do it; jobs are begun and dropped by the searches that hold them, and their
tokens are not given away -/
def Registry.Usage.isOpen (u : Registry.Usage) : Registry.Act → Bool
  | .root | .stop _ | .stopAll | .cancel _ => true
  | .child parent => u.owns parent
  | .begin .. | .drop _ | .cancelJob _ => false

/-- a backend, its callers and all searches that they have begun -/
structure Service where
  type : BackendType
  devices : Nat
  usage : Registry.Usage := {}
  stats : Stats := {}
  calls : List Call := []

namespace Service

def backend (s : Service) : Backend :=
  { type := s.type, devices := s.devices, registry := s.usage.registry, stats := s.stats }

inductive Move where
  /-- what everybody can do -/
  | act (a : Registry.Act)
  /-- asks for a search under a caller's token -/
  | call (r : Request) (parent : Token)
  /-- the next batch of a nonce search -/
  | batch (n : Nat)
  /-- a look at a search by a solver -/
  | look (n : Nat) (l : Solver.Look)
  /-- a search that is over gives its device back and returns -/
  | leave (n : Nat)

/-- begins a search under a caller's own token if it passes the checks and its device is free -/
def call? (s : Service) (r : Request) (parent : Token) : Option (Except Error Service) :=
  match s.backend.check r with
  | .error e => some (.error e)
  | .ok _ =>
    if s.usage.owns parent then
      match s.usage.act (.begin r.device parent) with
      | some (.begun job, usage) =>
        let c := Call.start s.type r job (s.usage.tokens.isCancelled parent)
        some (.ok { s with usage, calls := s.calls ++ [c] })
      | some (.refused e, _) => some (.error e)
      | _ => none
    else none

def turn? (s : Service) (n : Nat) (f : Call → Bool → Option (Stats × Call)) : Option Service := do
  let c ← s.calls[n]?
  let (stats, c) ← f c (s.usage.tokens.isCancelled c.job.token)
  return { s with stats := s.stats.add stats, calls := s.calls.set n c }

def leave? (s : Service) (n : Nat) : Option Service := do
  let c ← s.calls[n]?
  match c.stage with
  | .decided _ => (s.usage.act (.drop c.job)).map fun r => { s with usage := r.2 }
  | _ => none

def next (s : Service) : Move → Option Service
  | .act a =>
    if s.usage.isOpen a then (s.usage.act a).map fun r => { s with usage := r.2 } else none
  | .call r parent =>
    (s.call? r parent).map fun
      | .ok t => t
      | .error _ => s
  | .batch n => s.turn? n fun c seen => c.batch? seen
  | .look n l => s.turn? n fun c cancelled => c.look? l cancelled
  | .leave n => s.leave? n

end Service

end HeaderMiner
