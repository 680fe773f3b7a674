import Mathlib.Data.Nat.ModEq
import HeaderMiner.Proofs.Header.Editing
/-!
# The extra nonce as a counter

The extra nonce is a number of 24 bytes that is counted up, so after `k` times it has the bytes of the
number `k` further on (`iterate_incrementExtraNonce`), of which the bytes above the 24 are lost.  Two
counts give the same extra nonce exactly if they are the same modulo `2 ^ 192`, since the bytes of a
number tell it up to the space that they span (`leBytes_eq_iff`).
-/

namespace HeaderMiner

/-- the bytes of two numbers are the same exactly if the numbers are, up to what the bytes hold -/
theorem leBytes_eq_iff {k m n : Nat} : leBytes k m = leBytes k n ↔ m ≡ n [MOD 256 ^ k] := by
  constructor
  · intro h
    have hle := congrArg leNat h
    rwa [leNat_leBytes, leNat_leBytes] at hle
  · intro h
    have hm : m % 256 ^ k = n % 256 ^ k := h
    rw [← Header.leBytes_mod k m, hm, Header.leBytes_mod]

namespace Header

variable {j k : Nat}

/-! ## many steps -/

/-- the extra nonce a number of steps further on -/
def ahead (h : Header) (k : Nat) : ExtraNonce := ⟨leBytes 24 (h.counter + k), length_leBytes ..⟩

theorem ahead_zero (h : Header) : h.ahead 0 = h.extraNonce := by
  have hb := leBytes_leNat h.extraNonce.toList
  rw [Octets.length_toList] at hb
  exact Octets.ext hb

theorem counter_ahead (h : Header) (k : Nat) :
    ({ h with extraNonce := h.ahead k } : Header).counter = (h.counter + k) % 2 ^ 192 :=
  leNat_leBytes 24 _

theorem next_ahead (h : Header) (k : Nat) : Edit.next (h.ahead k) = h.ahead (k + 1) := by
  have hmod : leNat (leBytes 24 (h.counter + k)) + 1 ≡ h.counter + (k + 1) [MOD 256 ^ 24] := by
    rw [leNat_leBytes]
    exact (Nat.mod_modEq ..).add_right 1
  exact Octets.ext (leBytes_eq_iff.2 hmod)

/-- counting up changes the extra nonce and nothing else, whatever the carries are -/
theorem iterate_incrementExtraNonce (h : Header) (k : Nat) :
    incrementExtraNonce^[k] h = { h with extraNonce := h.ahead k } := by
  induction k with
  | zero =>
    rw [ahead_zero]
    rfl
  | succ k ih => rw [Function.iterate_succ_apply', ih, Edit.incrementExtraNonce_eq, next_ahead]

theorem ahead_eq_iff (h : Header) : h.ahead j = h.ahead k ↔ j ≡ k [MOD 2 ^ 192] := by
  have hbytes : h.ahead j = h.ahead k ↔ leBytes 24 (h.counter + j) = leBytes 24 (h.counter + k) :=
    ⟨congrArg Octets.toList, fun h => Octets.ext h⟩
  rw [hbytes, leBytes_eq_iff]
  exact ⟨fun hmod => hmod.add_left_cancel' _, fun hmod => hmod.add_left _⟩

/-! ## in place -/

def Buffer.countTimes : Nat → Buffer.Writer Unit
  | 0 => pure ()
  | k + 1 => do
    incrementExtraNonce
    countTimes k

theorem countTimes_octets (h : Header) (k : Nat) :
    Buffer.countTimes k h.octets = .ok () (incrementExtraNonce^[k] h).octets := by
  induction k generalizing h with
  | zero => rfl
  | succ k ih =>
    show EStateM.bind Buffer.incrementExtraNonce (fun _ => Buffer.countTimes k) h.octets = _
    rw [EStateM.bind, incrementExtraNonce_octets]
    exact ih h.incrementExtraNonce

/-- Counting up the extra nonce in place `k` times adds `k` to the number that it is, modulo
`2 ^ 192`, and changes no byte outside; so an extra nonce comes back after the multiples of `2 ^ 192`
and at no other time. -/
theorem countTimes_exact (h : Header) (k : Nat) :
    let g := incrementExtraNonce^[k] h
    Buffer.countTimes k h.octets = .ok () g.octets ∧
    leNat (Buffer.extraNonce g.octets).toList =
      (leNat (Buffer.extraNonce h.octets).toList + k) % 2 ^ 192 ∧
    (∀ i, ¬(128 ≤ i ∧ i < 152) → g.octets.toList[i]? = h.octets.toList[i]?) ∧
    ∀ j, Buffer.extraNonce (incrementExtraNonce^[j] h).octets = Buffer.extraNonce g.octets ↔
      j ≡ k [MOD 2 ^ 192] := by
  refine ⟨countTimes_octets h k, ?_, ?_, ?_⟩
  · rw [extraNonce_octets, extraNonce_octets, iterate_incrementExtraNonce]
    exact counter_ahead h k
  · intro i hi
    rw [iterate_incrementExtraNonce]
    exact Edit.getElem?_extraNonce h _ hi
  · intro j
    rw [extraNonce_octets, extraNonce_octets, iterate_incrementExtraNonce,
      iterate_incrementExtraNonce]
    exact ahead_eq_iff h

end Header

end HeaderMiner
