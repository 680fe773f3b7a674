import HeaderMiner.Worker.Candidate
/-!
# Totals

What a backend has done so far.
-/

namespace HeaderMiner

/-- the hashes tried and the matches found -/
structure Stats where
  hashes : Nat := 0
  found : Nat := 0
deriving DecidableEq, Repr

def Stats.add (a b : Stats) : Stats := ⟨a.hashes + b.hashes, a.found + b.found⟩

theorem Stats.zero_add (a : Stats) : ({} : Stats).add a = a := by simp [add]

end HeaderMiner
