import HeaderMiner.Worker.Candidate
/-!
# Rounds

A round is one search on the pinned device, or one on each device.  Nonce searches that run side by
side get headers that differ in the tail of the extra nonce.  All searches of a round end before it
does, and its result depends on theirs by index alone: the first failure, else the first match,
else nothing.
-/

namespace HeaderMiner.Round

/-- what a round needs to know of the backend, and the pinned device -/
structure Plan where
  kind : SearchKind
  devices : Nat
  params : Params
  device : Option Nat
deriving DecidableEq, Repr

def Plan.workers (p : Plan) : Nat :=
  match p.device with
  | some _ => 1
  | none => p.devices

/-- whether the headers of a round get tails of their own -/
def Plan.randomizes (p : Plan) : Bool := p.device.isNone && p.kind == .nonce

/-- the search of one worker; `tail` is the worker's own end of the extra nonce -/
def Plan.request (p : Plan) (h : Header) (target : Target) (tail : Octets 12) (index : Nat) :
    Request where
  header := if p.randomizes then h.setTail tail else h
  target := target
  params := p.params.forWorker index
  device := p.device.getD index

/-- the searches of a round, in the order of their workers -/
def Plan.requests (p : Plan) (h : Header) (target : Target) (tails : Nat → Octets 12) :
    List Request :=
  (List.range p.workers).map fun i => p.request h target (tails i) i

def firstFailure : List (Except Error Candidate) → Option Error
  | [] => none
  | .error e :: _ => some e
  | .ok _ :: rest => firstFailure rest

def firstMatch : List (Except Error Candidate) → Option Candidate
  | [] => none
  | .ok c :: rest => if c.isMatch then some c else firstMatch rest
  | .error _ :: rest => firstMatch rest

/-- the result of a round from those of its searches -/
def settle (results : List (Except Error Candidate)) : Except Error Candidate :=
  match firstFailure results with
  | some e => .error e
  | none => .ok ((firstMatch results).getD .none)

end HeaderMiner.Round
