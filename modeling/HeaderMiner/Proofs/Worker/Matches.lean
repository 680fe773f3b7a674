import HeaderMiner.Proofs.Worker.Fanout
import HeaderMiner.Proofs.Worker.Grinding
import HeaderMiner.Proofs.Worker.Searches
/-!
# Matches found by grinding are valid blocks

The block of a match is not carried along: a candidate holds a nonce and an extra nonce, and both
are written into the header of the job.  The header that was searched differs from the job's in the
tail of the extra nonce at most (`Plan.header_request`), so what is rebuilt is the header that was
searched, with the winning nonce (`Grind.finalize_of_run`).

So the match of a round on the CPU, which is that of the first of its searches that has one, makes a
block that is valid for the job (`Round.isWon_of_settle`).
-/

namespace HeaderMiner

/-- the header of a search has the job's bytes but for the tail of the extra nonce -/
theorem Round.Plan.getElem?_request {p : Plan} {h : Header} {target : Target} (tail : Octets 12)
    (i : Nat) {j : Nat} (hj : j < 140 ∨ 152 ≤ j) :
    (p.request h target tail i).header.toBytes[j]? = h.toBytes[j]? := by
  unfold request
  dsimp only
  split
  · exact Header.getElem?_setTail tail hj
  · rfl

/-- whether a block is valid for the job of a header, and won by search `r` with a nonce -/
structure Block.IsWon (block : Block) (h : Header) (r : Request) (nonce : UInt32) : Prop where
  /-- the header is the one that was searched, with the nonce written in -/
  header_eq : block.header = { r.header with nonce }
  raw_eq : block.raw = leBytes 4 nonce.toNat ++ r.header.toBytes.drop 4
  raw_eq_toBytes : block.raw = block.header.toBytes
  length_raw : block.raw.length = 256
  verify : block.header.verify r.target = true
  /-- nonce and tail of the extra nonce apart, the bytes are the job's -/
  getElem?_raw : ∀ j, (4 ≤ j ∧ j < 140 ∨ 152 ≤ j) → block.raw[j]? = h.toBytes[j]?

theorem Grind.finalize_of_run {h : Header} {r : Request} {start range : UInt32} {seen : Nat → Bool}
    {c : Candidate} (hr : r.header = { h with extraNonce := r.header.extraNonce })
    (hc : (run r.header r.target start range seen).1 = c) (hm : c.isMatch = true) :
    start.toNat ≤ c.nonce.toNat ∧ c.nonce.toNat < limit start range ∧
      c.finalize h = .ok ⟨{ r.header with nonce := c.nonce },
        ({ r.header with nonce := c.nonce } : Header).toBytes⟩ ∧
      ({ r.header with nonce := c.nonce } : Header).verify r.target = true := by
  obtain ⟨hle, hlt, hverify, hextra, hproof⟩ := verify_of_run hc hm
  have hf : h.finalize c.nonce c.extraNonce = { r.header with nonce := c.nonce } := by
    rw [hextra, hr]
    rfl
  refine ⟨hle, hlt, ?_, hverify⟩
  unfold Candidate.finalize
  rw [hproof, hf]

/-- a search that comes back with a match on the CPU has ground nonces -/
theorem Backend.run_of_answers {b : Backend} (hb : b.type = .cpu) {r : Request} {c : Candidate}
    (h : b.Answers r (.ok c)) (hc : c.isMatch = true) :
    ∃ q seen, r.params = .nonce q ∧
      (Grind.run r.header r.target q.nonce q.range seen).1 = c := by
  obtain ⟨registry, stats, ts, parent, course, h⟩ := h
  obtain ⟨-, token, us, h⟩ := conclude_of_mine h
  unfold conclude at h
  dsimp only at h
  rw [hb] at h
  cases hq : r.params with
  | nonce q =>
    rw [hq] at h
    exact ⟨q, _, rfl, Except.ok.inj h⟩
  | cycle q =>
    rw [hq] at h
    cases h
    cases hc

namespace Round

/-- a match on the CPU is that of the first search that has one, its nonce lies in the interval of
that search, and on the job's header it makes a block that this search has won -/
theorem isWon_of_settle {b : Backend} (hb : b.type = .cpu) {p : Plan} {h : Header} {target : Target}
    {tails : Nat → Octets 12} {results : List (Except Error Candidate)}
    (ha : List.Forall₂ b.Answers (p.requests h target tails) results) {c : Candidate}
    (hs : settle results = .ok c) (hc : c.isMatch = true) :
    ∃ i r q, (p.requests h target tails)[i]? = some r ∧ IsFirst results i c ∧
      r.target = target ∧ r.params = .nonce q ∧
      q.nonce.toNat ≤ c.nonce.toNat ∧ c.nonce.toNat < Grind.limit q.nonce q.range ∧
      ∃ block, c.finalize h = .ok block ∧ block.IsWon h r c.nonce := by
  obtain ⟨i, hi⟩ := exists_isFirst hs hc
  obtain ⟨r, hrequest, hanswer⟩ := Backend.exists_answers ha hi.1
  obtain rfl := Plan.eq_request hrequest
  obtain ⟨q, seen, hparams, hrun⟩ := Backend.run_of_answers hb hanswer hc
  obtain ⟨hle, hlt, hblock, hverify⟩ :=
    Grind.finalize_of_run (Plan.header_request (tails i) i) hrun hc
  refine ⟨i, _, q, hrequest, hi, rfl, hparams, hle, hlt, _, hblock, ?_⟩
  exact
    { header_eq := rfl
      raw_eq := Header.toBytes_nonce ..
      raw_eq_toBytes := rfl
      length_raw := Header.length_toBytes _
      verify := hverify
      getElem?_raw := fun j hj => by
        rw [Header.getElem?_nonce _ (by omega)]
        exact Plan.getElem?_request (tails i) i (by omega) }

namespace Trial

/-- a target that one hash in eight meets -/
def target : Target := ⟨.replicate 32 32⟩

/-- three workers try one nonce each -/
def requests : List Request :=
  (⟨.nonce, 3, .nonce { range := 1 }, none⟩ : Plan).requests .blank target
    fun i => .replicate 12 (UInt8.ofNat i)

def results : List (Except Error Candidate) :=
  ((Session.new .cpu 3).round (fun _ => .endless) requests).1

def found : Candidate := ⟨2, ⟨List.replicate 12 0 ++ List.replicate 12 2, rfl⟩, none, true⟩

end Trial

/-- of three workers only the last has luck -/
theorem isWon_of_settle_third :
    settle Trial.results = .ok Trial.found ∧
    ∃ i r q, Trial.requests[i]? = some r ∧ IsFirst Trial.results i Trial.found ∧
      r.target = Trial.target ∧ r.params = .nonce q ∧
      q.nonce.toNat ≤ Trial.found.nonce.toNat ∧
      Trial.found.nonce.toNat < Grind.limit q.nonce q.range ∧
      ∃ block, Trial.found.finalize .blank = .ok block ∧
        block.IsWon .blank r Trial.found.nonce := by
  have hs : settle Trial.results = .ok Trial.found := by decide +kernel
  exact ⟨hs, isWon_of_settle rfl (Session.answers_round ..) hs rfl⟩

end Round

end HeaderMiner
