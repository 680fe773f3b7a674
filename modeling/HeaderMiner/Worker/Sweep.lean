import HeaderMiner.Worker.Grind
/-!
# Grinding in machine words

The nonce search of a worker the way a machine does it: nonces are counted in words of 64 bits and
cut to 32 bits where they are hashed, and the totals are words of 64 bits, written down where a batch
ends.  A sum that does not fit its word and a difference below zero have no result, and neither has a
search that comes to one.  Each turn of a loop begins behind the one before it and inside the
interval, so every search ends.

A sweep also remembers which nonces it has hashed.
-/

namespace HeaderMiner

/-- the nonces that a search has hashed, in their order, and what it has added to the totals -/
structure Sweep where
  tried : List UInt32 := []
  hashes : UInt64 := 0
  found : UInt64 := 0

namespace Sweep

def add? (a b : UInt64) : Option UInt64 :=
  if b.toNat < 2 ^ 64 - a.toNat then some (a + b) else none

def sub? (a b : UInt64) : Option UInt64 := if b ≤ a then some (a - b) else none

/-- writes down some hashes and matches -/
def count? (s : Sweep) (hashes found : UInt64) : Option Sweep := do
  let hashes ← add? s.hashes hashes
  let found ← add? s.found found
  return { s with hashes, found }

theorem toNat_of_add? {a b c : UInt64} (h : add? a b = some c) : c.toNat = a.toNat + b.toNat := by
  unfold add? at h
  split at h
  · next hlt =>
    rw [← Option.some.inj h, UInt64.toNat_add, Nat.mod_eq_of_lt (by omega)]
  · cases h

def smaller (a b : UInt64) : UInt64 := if a ≤ b then a else b

theorem toNat_smaller (a b : UInt64) : (smaller a b).toNat = min a.toNat b.toNat := by
  unfold smaller
  by_cases h : a ≤ b
  · rw [if_pos h, Nat.min_eq_left (UInt64.le_iff_toNat_le.1 h)]
  · have hlt : ¬ a.toNat ≤ b.toNat := fun hle => h (UInt64.le_iff_toNat_le.2 hle)
    rw [if_neg h, Nat.min_eq_right (by omega)]

/-- hashes the nonces from `n` on, up to `stop` or to the first that meets the target -/
def batch? (target : Target) (stop : UInt64) (hasher : Hasher) (tried : List UInt32) (n : UInt64) :
    Option (Option UInt64 × Hasher × List UInt32) :=
  if _ : n < stop then
    let (hash, hasher) := hasher.hashNonce n.toUInt32
    let tried := tried ++ [n.toUInt32]
    if target.isMetBy hash then some (some n, hasher, tried)
    else
      match _ : add? n 1 with
      | none => none
      | some next => batch? target stop hasher tried next
  else some (none, hasher, tried)
termination_by stop.toNat - n.toNat
decreasing_by
  have hlt : n.toNat < stop.toNat := UInt64.lt_iff_toNat_lt.1 ‹n < stop›
  have hnext : next.toNat = n.toNat + 1 := toNat_of_add? ‹add? n 1 = some next›
  omega

/-- takes one batch after the other from `nonce` on, with a look at the token before each -/
def loop? (target : Target) (seen : Nat → Bool) (limit : UInt64) (hasher : Hasher) (s : Sweep)
    (look : Nat) (nonce : UInt64) : Option (Option UInt64 × Sweep) :=
  if _ : nonce < limit then
    if seen look then some (none, s)
    else
      match _ : add? nonce 4096 with
      | none => none
      | some next => do
        let stop := smaller next limit
        let (hit, hasher, tried) ← batch? target stop hasher s.tried nonce
        match hit with
        | some n => do
          let before ← sub? n nonce
          let hashes ← add? before 1
          let s ← { s with tried }.count? hashes 1
          return (some n, s)
        | none => do
          let hashes ← sub? stop nonce
          let s ← { s with tried }.count? hashes 0
          loop? target seen limit hasher s (look + 1) stop
  else some (none, s)
termination_by limit.toNat - nonce.toNat
decreasing_by
  have hlt : nonce.toNat < limit.toNat := UInt64.lt_iff_toNat_lt.1 ‹nonce < limit›
  have hnext := toNat_of_add? ‹add? nonce 4096 = some next›
  have hpos : 0 < (4096 : UInt64).toNat := by decide
  rw [toNat_smaller, hnext]
  omega

def space : UInt64 := 0x100000000

/-- the end of the interval that starts at a nonce -/
def limit? (start range : UInt32) : Option UInt64 :=
  (add? start.toUInt64 (if range = 0 then space else range.toUInt64)).map fun stop =>
    smaller stop space

def run? (h : Header) (target : Target) (start range : UInt32) (seen : Nat → Bool) :
    Option (Candidate × Sweep) := do
  let limit ← limit? start range
  let (hit, s) ← loop? target seen limit (.ofHeader h) {} 0 start.toUInt64
  match hit with
  | some n =>
    return ({ nonce := n.toUInt32, extraNonce := h.extraNonce, proof := none, isMatch := true }, s)
  | none => return (.noneOn h, s)

end Sweep

end HeaderMiner
