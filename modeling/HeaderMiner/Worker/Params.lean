import HeaderMiner.Power
/-!
# Search parameters

What a backend is told about its search.  Workers of a nonce search start one range apart, counted
modulo `2 ^ 32`; workers of a cycle search all get the same parameters.
-/

namespace HeaderMiner

/-- the two ways of searching -/
inductive SearchKind where
  /-- tries nonces one by one -/
  | nonce
  /-- looks for a cycle proof -/
  | cycle
deriving DecidableEq, Repr

structure NonceParams where
  /-- the first nonce -/
  nonce : UInt32 := 0
  /-- the number of nonces, where zero stands for all of them -/
  range : UInt32 := 0
  grids : UInt32 := 0
  blocks : UInt32 := 0
  threads : UInt32 := 0
deriving DecidableEq, Repr

structure CycleParams where
  threads : UInt32 := 0
  trims : UInt32 := 0
deriving DecidableEq, Repr

inductive Params where
  | nonce (p : NonceParams)
  | cycle (p : CycleParams)
deriving DecidableEq, Repr

/-- the parameters of a worker, by its index in the round -/
def Params.forWorker (index : Nat) : Params → Params
  | .nonce p => .nonce { p with nonce := p.nonce + UInt32.ofNat index * p.range }
  | .cycle p => .cycle p

def Params.kind : Params → SearchKind
  | .nonce _ => .nonce
  | .cycle _ => .cycle

end HeaderMiner
