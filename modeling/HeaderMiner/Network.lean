import HeaderMiner.Error
/-!
# Networks

The four chains that a node can serve, their names and ports, and whether a miner may roll the
header time forward on them.
-/

namespace HeaderMiner

inductive Network where
  | main
  | testnet
  | regtest
  | simnet
deriving DecidableEq, Repr, Inhabited

namespace Network

def name : Network → String
  | main => "main"
  | testnet => "testnet"
  | regtest => "regtest"
  | simnet => "simnet"

def ofName? (s : String) : Option Network :=
  if s = "main" then some main
  else if s = "testnet" then some testnet
  else if s = "regtest" then some regtest
  else if s = "simnet" then some simnet
  else none

def parse (s : String) : Except Error Network :=
  match ofName? s with
  | some n => .ok n
  | none => .error (.config ("Unknown network: " ++ s))

/-- whether moving on to fresh search space may roll the header time -/
def rollsTime : Network → Bool
  | main | regtest => true
  | testnet | simnet => false

/-- the port that a node serves this network on -/
def rpcPort : Network → Nat
  | main => 12037
  | testnet => 13037
  | regtest => 14037
  | simnet => 15037

theorem ofName?_name (n : Network) : ofName? n.name = some n := by
  cases n <;> rfl

end Network

end HeaderMiner
