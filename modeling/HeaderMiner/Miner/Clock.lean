import HeaderMiner.Miner.State
/-!
# The node's clock in machine words

The offset of the node's clock, and the time that it shows, reckoned the way a machine does it: in
signed words of 64 bits, for which unsigned words are taken bit by bit.  A sum or a difference that
does not fit such a word has no result, and neither has a reckoning that would come to one.
-/

namespace HeaderMiner.Miner.Clock

/-- the first number that is too large for a signed word -/
def limit : Nat := 2 ^ 63

def fit? (n : Int) : Option Int64 :=
  if -limit ≤ n ∧ n < limit then some (Int64.ofInt n) else none

def add? (a b : Int64) : Option Int64 := fit? (a.toInt + b.toInt)

def sub? (a b : Int64) : Option Int64 := fit? (a.toInt - b.toInt)

/-- the offset that a node's time makes at a local time -/
def offset? (time : UInt32) (clock : UInt64) : Option Int64 :=
  sub? time.toUInt64.toInt64 clock.toInt64

/-- the node's clock at a local time, which does not go below zero -/
def now? (offset : Int64) (clock : UInt64) : Option UInt64 :=
  (add? clock.toInt64 offset).map fun n => (max n 0).toUInt64

end HeaderMiner.Miner.Clock
