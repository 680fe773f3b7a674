import HeaderMiner.CycleBlock
import HeaderMiner.ProofOfWork
import HeaderMiner.Target.Difficulty
import HeaderMiner.Worker.Params
/-!
# Candidates

What one search comes back with, and the block that is made of it.  The block is built on the
header that was dispatched: nonce and extra nonce are the only fields that a search may change.
-/

namespace HeaderMiner

/-- one search: a header, a target, parameters and the device that runs it -/
structure Request where
  header : Header
  target : Target
  params : Params
  device : Nat
deriving DecidableEq

structure Candidate where
  nonce : UInt32
  /-- the extra nonce of the header that was searched -/
  extraNonce : ExtraNonce
  /-- a cycle proof, if one was found -/
  proof : Option (List UInt8)
  /-- whether the target is met -/
  isMatch : Bool
deriving DecidableEq

structure Block where
  header : Header
  raw : List UInt8
deriving DecidableEq

namespace Candidate

def none : Candidate := ⟨0, .replicate 24 0, .none, false⟩

def noneOn (h : Header) : Candidate := { none with extraNonce := h.extraNonce }

/-- the difficulty that the proof would meet -/
def share (c : Candidate) : Option Float := c.proof.map fun p => shareOf (proofHash p)

/-- the block of a candidate on the header that it was found on -/
def finalize (c : Candidate) (h : Header) : Except Violation Block :=
  let header := h.finalize c.nonce c.extraNonce
  match c.proof with
  | some proof => (CycleBlock.encode header.toBytes c.nonce proof).map (⟨header, ·⟩)
  | .none => .ok ⟨header, header.toBytes⟩

end Candidate

end HeaderMiner
