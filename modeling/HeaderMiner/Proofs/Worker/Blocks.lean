import HeaderMiner.Worker.Backend
/-!
# Which candidates make a block

A block counts the words of its proof in one byte, so a candidate makes a block exactly if its proof
is a whole number of words and not of too many (`exists_finalize_iff`).  Nothing else comes back
from the backends that there are (`isWhole_of_conclude`): grinding finds no proofs, and what a
solver writes is checked.
-/

namespace HeaderMiner

/-- a proof can be put behind one header exactly if it is whole words that one byte can count -/
theorem CycleBlock.exists_encode_iff {raw proof : List UInt8} {nonce : UInt32}
    (hr : raw.length = Header.size) :
    (∃ bs, encode raw nonce proof = .ok bs) ↔ proof.length % 4 = 0 ∧ proof.length / 4 ≤ 255 := by
  unfold encode
  rw [if_neg (not_not_intro hr)]
  by_cases hm : proof.length % 4 = 0
  · rw [if_neg (not_not_intro hm)]
    by_cases hl : 255 < proof.length / 4
    · rw [if_pos hl]
      refine iff_of_false ?_ fun h => absurd h.2 (Nat.not_le.2 hl)
      rintro ⟨_, h⟩
      cases h
    · rw [if_neg hl]
      exact iff_of_true ⟨_, rfl⟩ ⟨hm, Nat.not_lt.1 hl⟩
  · rw [if_pos hm]
    refine iff_of_false ?_ fun h => hm h.1
    rintro ⟨_, h⟩
    cases h

theorem CycleBlock.ne_timeTooLarge_of_encode {raw proof : List UInt8} {nonce : UInt32}
    {v : Violation} (h : encode raw nonce proof = .error v) (time : Nat) :
    v ≠ .timeTooLarge time := by
  unfold encode at h
  split at h
  · cases h
    exact nofun
  · split at h
    · cases h
      exact nofun
    · split at h
      · cases h
        exact nofun
      · cases h

namespace Candidate

variable {c : Candidate} {h : Header}

/-- whether the proof, if there is one, is a whole number of words that one byte can count -/
def IsWhole (c : Candidate) : Prop :=
  ∀ p, c.proof = some p → p.length % 4 = 0 ∧ p.length / 4 ≤ 255

theorem isWhole_of_proof_eq_none (hp : c.proof = .none) : c.IsWhole := by
  intro p h
  rw [hp] at h
  cases h

theorem finalize_of_proof_eq_some {proof : List UInt8} (hp : c.proof = some proof) :
    c.finalize h = (CycleBlock.encode (h.finalize c.nonce c.extraNonce).toBytes c.nonce proof).map
      (⟨h.finalize c.nonce c.extraNonce, ·⟩) := by
  simp only [finalize, hp]

/-- a candidate makes a block exactly if its proof is whole -/
theorem exists_finalize_iff : (∃ b, c.finalize h = .ok b) ↔ c.IsWhole := by
  cases hp : c.proof with
  | none =>
    refine iff_of_true ?_ (isWhole_of_proof_eq_none hp)
    simp only [finalize, hp]
    exact ⟨_, rfl⟩
  | some proof =>
    have hr : (h.finalize c.nonce c.extraNonce).toBytes.length = Header.size :=
      Header.length_toBytes _
    have hw : c.IsWhole ↔ proof.length % 4 = 0 ∧ proof.length / 4 ≤ 255 := by
      simp [IsWhole, hp]
    rw [finalize_of_proof_eq_some hp, hw, ← @CycleBlock.exists_encode_iff _ proof c.nonce hr]
    cases CycleBlock.encode (h.finalize c.nonce c.extraNonce).toBytes c.nonce proof with
    | error v =>
      refine iff_of_false ?_ ?_
      · rintro ⟨_, h⟩
        cases h
      · rintro ⟨_, h⟩
        cases h
    | ok bs => exact iff_of_true ⟨_, rfl⟩ ⟨bs, rfl⟩

theorem ne_timeTooLarge_of_finalize {v : Violation} (hf : c.finalize h = .error v) (time : Nat) :
    v ≠ .timeTooLarge time := by
  cases hp : c.proof with
  | none =>
    simp only [finalize, hp] at hf
    cases hf
  | some proof =>
    rw [finalize_of_proof_eq_some hp] at hf
    cases he : CycleBlock.encode (h.finalize c.nonce c.extraNonce).toBytes c.nonce proof with
    | ok bs =>
      rw [he] at hf
      cases hf
    | error w =>
      rw [he] at hf
      obtain rfl := Except.error.inj hf
      exact CycleBlock.ne_timeTooLarge_of_encode he time

end Candidate

/-! ## what backends come back with -/

theorem Grind.proof_run (h : Header) (target : Target) (start range : UInt32) (seen : Nat → Bool) :
    (run h target start range seen).1.proof = none := by
  unfold run
  dsimp only
  split <;> rfl

namespace Solver

theorem isProofSize_of_parseOutput {out proof : List UInt8} {nonce : UInt32}
    (h : parseOutput out = .ok (some (nonce, proof))) : isProofSize proof.length = true := by
  unfold parseOutput at h
  dsimp only at h
  split at h
  · cases h
  · split at h
    · cases h
    · split at h
      · cases h
      · split at h
        · next hs => cases h; exact hs
        · cases h
  · cases h

theorem isWhole_of_conclude {r : Request} {e : Ending} {c : Candidate}
    (h : (conclude r e).1 = .ok c) : c.IsWhole := by
  cases e with
  | cancelled =>
    cases h
    exact Candidate.isWhole_of_proof_eq_none rfl
  | solver run =>
    unfold conclude at h
    dsimp only at h
    split at h
    · cases h
    · next answer ha =>
      cases h
      cases answer with
      | none => exact Candidate.isWhole_of_proof_eq_none rfl
      | some a =>
        obtain ⟨out, ho⟩ : ∃ out, parseOutput out = .ok (some a) := by
          cases hr : run.output with
          | error e => rw [hr] at ha; cases ha
          | ok out => rw [hr] at ha; exact ⟨out, ha⟩
        intro p hp
        cases hp
        have hs : isProofSize a.2.length = true := isProofSize_of_parseOutput ho
        simp only [isProofSize, Bool.and_eq_true, beq_iff_eq, decide_eq_true_eq] at hs
        exact ⟨hs.1.2, hs.2⟩

end Solver

/-- whatever a backend comes back with makes a block -/
theorem Backend.isWhole_of_conclude {b : Backend} {i : Invocation} {course : Course} {c : Candidate}
    (h : (b.conclude i course).1 = .ok c) : c.IsWhole := by
  unfold conclude at h
  split at h
  · cases h
    exact Candidate.isWhole_of_proof_eq_none (Grind.proof_run ..)
  · cases h
    exact Candidate.isWhole_of_proof_eq_none rfl
  · exact Solver.isWhole_of_conclude h

end HeaderMiner
