import HeaderMiner.Proofs.Miner.History
import HeaderMiner.Proofs.Work.Answer
/-!
# Histories written down move by move

A node that describes work of another identity than the slot's always gets it taken on
(`step_answer_ofWork`).  All other steps of a given miner can be computed, so a history of it can be
written down move by move (`History.go`, `History.receive`).  `Trial` is a miner for that, with one
device and no checks, and with work that differs in its identity, in one more field of the header
and in the target.
-/

namespace HeaderMiner.Miner

namespace State

variable {su : Setup} {s : State}

theorem judgeAnswer_ofWork {w : Work} (hi : s.identity? ≠ some w.identity) :
    s.judgeAnswer su (.ok (some (.ofWork su.network w))) = .ok (.newJob, some w) :=
  judgeAnswer_eq_some_iff.2 ⟨rfl, _, rfl, WorkAnswer.validate_ofWork .., hi⟩

theorem step_answer_ofWork {q : Inquiry} {id : Nat} {w : Work} {clock : Int}
    (hq : s.inquiries.find? (fun i => i.id == id) = some q)
    (hi : s.identity? ≠ some w.identity) :
    s.step su (.answer id (.ok (some (.ofWork su.network w))) clock) =
      some (((s.without q).install w clock).1.resume q.asker,
        ((s.without q).install w clock).2 ++ [.answered q.id q.asker (.ok .newJob)]) := by
  have hj : (s.without q).judgeAnswer su (.ok (some (.ofWork su.network w))) =
      .ok (.newJob, some w) := judgeAnswer_ofWork (s := s.without q) hi
  have hm : ∀ e, (.ok .newJob : Except Error Outcome) = .error e → q.asker ≠ .caller →
      e.isFatal = false := fun e he => nomatch he
  show (s.inquiries.find? fun i => i.id == id).map
    (fun q => s.answer su q (.ok (some (.ofWork su.network w))) clock) = _
  rw [hq]
  exact congrArg some (answer_eq (receive_of_some hj clock) (contain_of_mild hm))

end State

namespace History

variable {su : Setup}

def go (h : History su) (m : Move) (hs : (h.state.step su m).isSome = true) : History su :=
  h.extend m ((h.state.step su m).get hs).1 ((h.state.step su m).get hs).2 (Option.some_get hs).symm

/-- a history goes on with an answer that describes work of another identity -/
def receive (h : History su) (q : Inquiry) (w : Work)
    (hq : (h.state.inquiries.find? fun i => i.id == q.id) = some q)
    (hi : h.state.identity? ≠ some w.identity) : History su :=
  h.extend (.answer q.id (.ok (some (.ofWork su.network w))) 0) _ _
    (State.step_answer_ofWork hq hi)

end History

namespace Trial

/-- a miner with one device, which searches for cycles -/
def setup : Setup := ⟨.testnet, ⟨.cycle, 1, .cycle {}, none⟩, fun _ => .ok ()⟩

def work (identity merkle target : UInt8) : Work where
  header :=
    { nonce := 0, time := ⟨0, Nat.zero_le _⟩, padding := .replicate 20 0
      prevBlock := .replicate 32 0, treeRoot := .replicate 32 0, maskHash := .replicate 32 identity
      extraNonce := .replicate 24 0, reservedRoot := .replicate 32 0
      witnessRoot := .replicate 32 0, merkleRoot := .replicate 32 merkle, version := 0, bits := 0 }
  target := ⟨.replicate 32 target⟩
  height := 1
  time := 0

/-- the begin of a round, when local time has not begun either -/
def moment : Moment := ⟨0, fun _ => .replicate 12 0⟩

/-- the search of a round goes on while two other jobs are taken on, the second of which carries the
identity of the first job of all, with another header and another target -/
def overtaken : History setup :=
  (History.start setup)
    |>.go .tick (by decide +kernel)
    |>.receive ⟨0, .caller⟩ (work 1 0 255) (by decide +kernel) (by decide +kernel)
    |>.go .enter (by decide +kernel)
    |>.go (.turn moment) (by decide +kernel)
    |>.go (.beginSearch 0) (by decide +kernel)
    |>.go .tick (by decide +kernel)
    |>.receive ⟨1, .caller⟩ (work 2 0 255) (by decide +kernel) (by decide +kernel)
    |>.go .tick (by decide +kernel)
    |>.receive ⟨2, .caller⟩ (work 1 3 254) (by decide +kernel) (by decide +kernel)

/-- a round has begun, its search has not, and a request is open -/
def awaiting : History setup :=
  (History.start setup)
    |>.go .tick (by decide +kernel)
    |>.receive ⟨0, .caller⟩ (work 1 0 255) (by decide +kernel) (by decide +kernel)
    |>.go .enter (by decide +kernel)
    |>.go (.turn moment) (by decide +kernel)
    |>.go .tick (by decide +kernel)

end Trial

end HeaderMiner.Miner
