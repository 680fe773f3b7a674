import HeaderMiner.Power
import HeaderMiner.Worker.Stats
/-!
# Grinding nonces

The nonce search of one CPU worker: nonces are hashed in order, in batches of 4096, and before each
batch the search looks whether it is cancelled.  The interval ends with the nonce space at the
latest, so nothing wraps.  The search comes back with the first nonce whose hash meets the target
and with the number of nonces that it has hashed.
-/

namespace HeaderMiner

namespace Grind

/-- nonces hashed between two looks at the token -/
def batchSize : Nat := 4096

/-- the end of the interval that starts at a nonce -/
def limit (start range : UInt32) : Nat :=
  min (start.toNat + if range = 0 then 2 ^ 32 else range.toNat) (2 ^ 32)

/-- the first nonce from `n` on, among `count`, that meets the target -/
def scan (target : Target) (s : Hasher) (n : Nat) : Nat → Option Nat × Hasher
  | 0 => (none, s)
  | count + 1 =>
    let (hash, s) := s.hashNonce (UInt32.ofNat n)
    if target.isMetBy hash then (some n, s) else scan target s (n + 1) count

/-- what a search has found and how many nonces it has hashed -/
structure Outcome where
  nonce : Option Nat
  hashed : Nat
deriving DecidableEq, Repr

/-- searches from `n` to `limit` in at most `batches` batches; `seen i` tells whether the `i`-th
look at the token sees it cancelled -/
def search (target : Target) (seen : Nat → Bool) (limit : Nat) (s : Hasher) (look n : Nat) :
    Nat → Outcome
  | 0 => ⟨none, 0⟩
  | batches + 1 =>
    if limit ≤ n then ⟨none, 0⟩
    else if seen look then ⟨none, 0⟩
    else
      let size := min batchSize (limit - n)
      match scan target s n size with
      | (some m, _) => ⟨some m, m - n + 1⟩
      | (none, s) =>
        let rest := search target seen limit s (look + 1) (n + size) batches
        ⟨rest.nonce, size + rest.hashed⟩

/-- batches that are enough for any interval -/
def maxBatches : Nat := 2 ^ 32 / batchSize + 1

def run (h : Header) (target : Target) (start range : UInt32) (seen : Nat → Bool) :
    Candidate × Stats :=
  let o := search target seen (limit start range) (.ofHeader h) 0 start.toNat maxBatches
  match o.nonce with
  | some n =>
    ({ nonce := UInt32.ofNat n, extraNonce := h.extraNonce, proof := none, isMatch := true },
      ⟨o.hashed, 1⟩)
  | none => (.noneOn h, ⟨o.hashed, 0⟩)

end Grind

end HeaderMiner
