import HeaderMiner.Proofs.Header.CycleBlock
import HeaderMiner.Proofs.Target.Order
import HeaderMiner.Proofs.Worker.Blocks
import HeaderMiner.Proofs.Worker.Searches
/-!
# Cycle proofs make blocks that can be read

Whatever bytes a solver writes, an answer that is taken for a proof is one that a block can hold
(`Solver.isProofSize_iff`), and its candidate stays on the header of the request.  So the block is
made without a violation, and reading it gives the header with the solver's nonce and the proof
again (`Backend.decode_of_mine`).
-/

namespace HeaderMiner

namespace Solver

theorem isProofSize_iff {n : Nat} : isProofSize n = true ↔ n ≠ 0 ∧ n % 4 = 0 ∧ n / 4 ≤ 255 := by
  unfold isProofSize
  simp [and_assoc]

theorem output_eq_ok_iff {run : Run} {out : List UInt8} :
    run.output = .ok out ↔ ∃ stderr, run = .exited (some 0) out stderr := by
  constructor
  · intro h
    unfold Run.output at h
    split at h
    · cases h
    · cases h
    · cases h
      exact ⟨_, rfl⟩
    · cases h
    · cases h
    · cases h
  · rintro ⟨stderr, rfl⟩
    rfl

theorem exists_output {run : Run} {answer : Option (UInt32 × List UInt8)}
    (h : run.output.bind parseOutput = .ok answer) :
    ∃ stdout stderr, run = .exited (some 0) stdout stderr ∧ parseOutput stdout = .ok answer := by
  cases ho : run.output with
  | error e =>
    rw [ho] at h
    cases h
  | ok stdout =>
    obtain ⟨stderr, rfl⟩ := output_eq_ok_iff.1 ho
    exact ⟨stdout, stderr, rfl, h⟩

/-- the proof of a candidate has been read from what a solver wrote before it ended with success -/
theorem answer_of_conclude {r : Request} {e : Ending} {c : Candidate} {proof : List UInt8}
    (h : (conclude r e).1 = .ok c) (hp : c.proof = some proof) :
    ∃ stdout stderr, e = .solver (.exited (some 0) stdout stderr) ∧
      parseOutput stdout = .ok (some (c.nonce, proof)) ∧
      c = candidate r (some (c.nonce, proof)) := by
  cases e with
  | cancelled =>
    cases h
    cases hp
  | solver run =>
    unfold conclude at h
    dsimp only at h
    split at h
    · cases h
    · next answer ha =>
      cases h
      cases answer with
      | none => cases hp
      | some a =>
        obtain ⟨nonce, found⟩ := a
        obtain rfl : found = proof := Option.some.inj hp
        obtain ⟨stdout, stderr, rfl, hparse⟩ := exists_output ha
        exact ⟨stdout, stderr, rfl, hparse, rfl⟩

end Solver

/-- on the request's header, a proof makes the block of that header with the solver's nonce -/
theorem Candidate.decode_of_finalize {c : Candidate} {h : Header} {proof : List UInt8} {block : Block}
    (hp : c.proof = some proof) (he : c.extraNonce = h.extraNonce)
    (hf : c.finalize h = .ok block) :
    CycleBlock.decode block.raw = .ok ({ h with nonce := c.nonce }, proof) := by
  have hh : h.finalize c.nonce c.extraNonce = { h with nonce := c.nonce } := by
    rw [he]
    rfl
  rw [finalize_of_proof_eq_some hp, hh] at hf
  generalize hr : ({ h with nonce := c.nonce } : Header) = header at hf ⊢
  cases hb : CycleBlock.encode header.toBytes c.nonce proof with
  | error v =>
    rw [hb] at hf
    cases hf
  | ok bs =>
    rw [hb] at hf
    cases hf
    have hd : CycleBlock.decode bs = .ok ({ header with nonce := c.nonce }, proof) :=
      CycleBlock.decode_encode hb
    rw [hd, ← hr]

namespace Backend

variable {b : Backend} {ts : Tokens} {r : Request} {parent : Token}
  {course : Invocation → Tokens → Course} {c : Candidate}

/-- whatever an external solver writes, what comes back makes a block, and a proof makes one that
reads as the request's header with the solver's nonce, and that proof -/
theorem decode_of_mine (hb : b.type = .external) (h : (b.mine ts r parent course).1 = .ok c) :
    (∀ header, ∃ block, c.finalize header = .ok block) ∧
    ∀ proof, c.proof = some proof →
      (∃ token us stdout stderr,
        (course ⟨r, token⟩ us).ending = .solver (.exited (some 0) stdout stderr) ∧
        Solver.parseOutput stdout = .ok (some (c.nonce, proof))) ∧
      proof ≠ [] ∧ proof.length % 4 = 0 ∧ proof.length / 4 ≤ 255 ∧
      c.extraNonce = r.header.extraNonce ∧
      (c.isMatch = true ↔ beNat (Blake2b.hash256 proof).toList ≤ r.target.value) ∧
      ∃ block, c.finalize r.header = .ok block ∧
        CycleBlock.decode block.raw = .ok ({ r.header with nonce := c.nonce }, proof) := by
  obtain ⟨-, token, us, hcon⟩ := conclude_of_mine h
  have hblock (header : Header) : ∃ block, c.finalize header = .ok block :=
    Candidate.exists_finalize_iff.2 (isWhole_of_conclude hcon)
  refine ⟨hblock, fun proof hp => ?_⟩
  unfold conclude at hcon
  rw [hb] at hcon
  obtain ⟨stdout, stderr, hending, hparse, hcandidate⟩ := Solver.answer_of_conclude hcon hp
  obtain ⟨hne, hwords, hcount⟩ :=
    Solver.isProofSize_iff.1 (Solver.isProofSize_of_parseOutput hparse)
  have hextra : c.extraNonce = r.header.extraNonce := by rw [hcandidate]; rfl
  have hmatch : c.isMatch = r.target.isMetBy (Blake2b.hash256 proof) := by rw [hcandidate]; rfl
  obtain ⟨block, hf⟩ := hblock r.header
  refine ⟨⟨token, us, stdout, stderr, hending, hparse⟩, ?_, hwords, hcount, hextra, ?_, block, hf,
    Candidate.decode_of_finalize hp hextra hf⟩
  · rintro rfl
    exact hne rfl
  · rw [hmatch]
    exact Target.isMetBy_iff

namespace Trial

def request : Request := ⟨.blank, .max, .cycle {}, 0⟩

def answered (_ : Invocation) (_ : Tokens) : Course :=
  { ending := .solver (.exited (some 0) [55, 32, 48, 49, 48, 50, 48, 51, 48, 52, 10] []) }

def found : Candidate := ⟨7, .replicate 24 0, some [1, 2, 3, 4], true⟩

end Trial

theorem decode_of_mine_one_word :
    ((⟨.external, 1, {}, {}⟩ : Backend).mine {} Trial.request [] Trial.answered).1 =
      .ok Trial.found ∧
    Trial.found.proof = some [1, 2, 3, 4] ∧
    ∃ block, Trial.found.finalize Trial.request.header = .ok block ∧
      CycleBlock.decode block.raw =
        .ok ({ Trial.request.header with nonce := 7 }, [1, 2, 3, 4]) := by
  have h : ((⟨.external, 1, {}, {}⟩ : Backend).mine {} Trial.request [] Trial.answered).1 =
      .ok Trial.found := by decide +kernel
  obtain ⟨-, hproof⟩ := decode_of_mine rfl h
  obtain ⟨-, -, -, -, -, -, hblock⟩ := hproof [1, 2, 3, 4] rfl
  exact ⟨h, rfl, hblock⟩

end Backend

end HeaderMiner
