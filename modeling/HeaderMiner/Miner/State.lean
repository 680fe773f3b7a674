import HeaderMiner.Work
import HeaderMiner.Worker.Backend
import HeaderMiner.Worker.Round
/-!
# The state of a miner

A miner asks a node for work, keeps the job it was given last in a slot, and has one loop that
searches that job round after round.  Requests for work come from outside, from the timer of a run
and from the loop itself, and any number of them can be open at once; so the state says of each of
these parties what it is waiting for, and nothing else can happen to it until that arrives.

Each job has a token under the token of the whole miner, each search of a round has one under its
job's, and a search that holds its device has one more below that.
-/

namespace HeaderMiner.Miner

/-- what stays as it is while a miner runs -/
structure Setup where
  network : Network
  plan : Round.Plan
  /-- the checks that a search passes before it asks for its device -/
  check : Request → Except Error Unit

/-- the setup of a miner that has a backend for itself -/
def Setup.ofBackend (network : Network) (b : Backend) (params : Params) (device : Option Nat) :
    Setup where
  network := network
  plan := { kind := b.type.kind, devices := b.devices, params, device }
  check := b.check

/-- work that has been taken on, and the token that is cancelled when other work replaces it -/
structure Job where
  work : Work
  token : Token
deriving DecidableEq

def Job.identity (j : Job) : Octets 32 := j.work.identity

/-! ## the mining loop -/

/-- what the loop keeps from one round to the next: a job, and a header of its own that moves on
with each round -/
structure Focus where
  job : Job
  /-- the identity that the header was taken for -/
  identity : Octets 32
  header : Header
deriving DecidableEq

def Focus.on (j : Job) : Focus := ⟨j, j.identity, j.work.header⟩

/-- turns to the job in the slot, whose header is taken afresh only when its identity is another -/
def Focus.turnTo (f : Focus) (slot : Option Job) : Focus :=
  let job := slot.getD f.job
  if job.identity = f.identity then { f with job } else .on job

/-- how far a search of a round is -/
inductive Phase where
  | waiting
  /-- it holds its device under a token -/
  | running (token : Token)
  | ended (result : Except Error Candidate)

/-- a search of the open round -/
structure Search where
  request : Request
  /-- its token under the job's -/
  parent : Token
  phase : Phase := .waiting

/-- the searches of a round, each with a token under the job's -/
def Search.ofRequests (job : Token) : Tokens → List Request → List Search × Tokens
  | ts, [] => ([], ts)
  | ts, r :: rs =>
    let (parent, ts) := ts.child job
    let (searches, ts) := ofRequests job ts rs
    ({ request := r, parent } :: searches, ts)

def Search.result? (s : Search) : Option (Except Error Candidate) :=
  match s.phase with
  | .ended result => some result
  | _ => none

/-- where the mining loop is; rounds are numbered from zero -/
inductive Loop where
  | absent
  /-- it exists, and has not looked at the slot yet -/
  | started
  /-- it is about to look at the slot for its next round -/
  | ready (f : Focus)
  | round (f : Focus) (number : Nat) (searches : List Search)
  /-- it lets some time pass after a failed round -/
  | pause (f : Focus)
  /-- it waits for the verdict on the block that a round has found -/
  | submission (f : Focus) (number : Nat)
  /-- it waits for an answer to a request of its own -/
  | polling (f : Focus)
  | finished
  /-- it has broken an assertion -/
  | broken (v : Violation)

/-- whether there is a loop that still has something to do -/
def Loop.isAlive : Loop → Bool
  | .absent | .finished | .broken _ => false
  | _ => true

/-! ## requests for work and runs -/

/-- who asks for work; all but a caller contain the errors that they meet -/
inductive Asker where
  | caller
  | poller
  /-- the timer of a run -/
  | timer
  | loop
deriving DecidableEq, Repr

/-- a request for work that is not answered yet -/
structure Inquiry where
  id : Nat
  asker : Asker
deriving DecidableEq, Repr

inductive RunPoint where
  /-- no run is going on -/
  | off
  /-- it waits for its timer or for a stop -/
  | waiting
  | polling
  /-- it waits for the mining loop to end -/
  | leaving
deriving DecidableEq, Repr

/-! ## the whole -/

structure State where
  tokens : Tokens
  /-- the token of the whole miner -/
  shutdown : Token
  slot : Option Job := none
  /-- the node's time less the local time, in seconds -/
  offset : Int := 0
  /-- whether a mining loop has been started that has not finished -/
  mining : Bool := false
  loop : Loop := .absent
  inquiries : List Inquiry := []
  nextInquiry : Nat := 0
  registry : Registry := {}
  /-- the first fatal error that no run has returned yet -/
  fatal : Option Error := none
  run : RunPoint := .off
  /-- the number of rounds so far -/
  rounds : Nat := 0
  submitted : Nat := 0
  accepted : Nat := 0

namespace State

def fresh : State :=
  let (shutdown, tokens) := Tokens.root {}
  { tokens, shutdown }

def isStopped (s : State) : Bool := s.tokens.isCancelled s.shutdown

def identity? (s : State) : Option (Octets 32) := s.slot.map Job.identity

/-- the identity that a request for work names: zeros stand for having no job -/
def shownIdentity (s : State) : Octets 32 := s.identity?.getD (.replicate 32 0)

/-- the node's clock, which does not go below zero -/
def now (s : State) (clock : Int) : Nat := (clock + s.offset).toNat

/-- whether a job has been replaced, or the miner stopped -/
def isSuperseded (s : State) (j : Job) : Bool := s.tokens.isCancelled j.token

end State

end HeaderMiner.Miner
