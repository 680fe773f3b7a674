import Mathlib.Logic.Relation
import HeaderMiner.Proofs.Miner.History
import HeaderMiner.Proofs.Miner.Operations
/-!
# The handover from one job to the next

`State.install` takes on new work in one piece.  In a miner with more than one thread only the slot
is held while that happens: whoever reads the slot waits, but searches begin and end, the miner may
be stopped, and a request may come to nothing.  Here the same is done piece by piece, in a system
whose states are scenes: a state of the miner, and how far the handover is.

* `lock`     new work is found to have another identity than the slot's, and the slot is held;
* `silence`  the clock is set, and the searches of the backend are stopped;
* `replace`  the new job is made, and put into the slot;
* `relieve`  the outgoing job is cancelled;
* `unlock`   the slot is free again, and a loop is started.

Between these any move may come that leaves the slot alone and does not look at it (`State.Blind`).
A handover that nobody disturbs is a step of the miner (`handover_install`), so every history is a
run of this system (`History.scene`).
-/

namespace HeaderMiner.Miner

/-- a move whose outcome does not depend on the slot -/
def State.Blind (su : Setup) (s : State) (m : Move) : Prop :=
  ∀ slot, { s with slot }.step su m = (s.step su m).map fun p => ({ p.1 with slot }, p.2)

/-- how far a handover is, if there is one -/
inductive Stage where
  | free
  | locked (q : Inquiry) (w : Work) (clock : Int)
  | silenced (q : Inquiry) (w : Work)
  | replaced (q : Inquiry) (outgoing : Option Job)
  | relieved (q : Inquiry)

structure Scene where
  state : State
  stage : Stage

namespace Scene

def start : Scene := ⟨.fresh, .free⟩

/-- the job whose searches have been stopped, while it has not been cancelled yet -/
def leaving (c : Scene) : Option Job :=
  match c.stage with
  | .silenced .. => c.state.slot
  | .replaced _ outgoing => outgoing
  | _ => none

inductive Next (su : Setup) : Scene → Scene → Prop where
  | move {s t m es stage} (step : s.step su m = some (t, es)) (slot : t.slot = s.slot)
      (blind : stage = .free ∨ s.Blind su m) : Next su ⟨s, stage⟩ ⟨t, stage⟩
  | lock {s id response clock q w}
      (open_ : s.inquiries.find? (fun i => i.id == id) = some q)
      (judged : s.judgeAnswer su response = .ok (.newJob, some w)) :
      Next su ⟨s, .free⟩ ⟨s.without q, .locked q w clock⟩
  | silence {s q w clock} : Next su ⟨s, .locked q w clock⟩
      ⟨{ s with offset := (w.time.toNat : Int) - clock }.stopAll, .silenced q w⟩
  | replace {s q w} : Next su ⟨s, .silenced q w⟩
      ⟨{ s with tokens := (s.tokens.child s.shutdown).2, slot := some (s.jobOf w) },
        .replaced q s.slot⟩
  | relieve {s q outgoing} : Next su ⟨s, .replaced q outgoing⟩
      ⟨{ s with tokens := State.retire outgoing s.tokens }, .relieved q⟩
  | unlock {s q} : Next su ⟨s, .relieved q⟩ ⟨s.launch.1.resume q.asker, .free⟩

abbrev Leads (su : Setup) : Scene → Scene → Prop := Relation.ReflTransGen (Next su)

end Scene

variable {su : Setup} {s t : State} {m : Move} {es : List Event}

/-! ## what does not look at the slot -/

theorem State.blind_beginSearch (s : State) (i : Nat) : s.Blind su (.beginSearch i) := by
  intro slot
  dsimp only [step]
  cases s.loop with
  | round f n qs =>
    dsimp only
    cases qs[i]? with
    | none => rfl
    | some q =>
      dsimp only
      cases q.phase with
      | waiting =>
        dsimp only [beginSearch, Option.map_some]
        cases su.check q.request with
        | error e => rfl
        | ok u => cases s.registry.start s.tokens q.request.device q.parent <;> rfl
      | _ => rfl
  | _ => rfl

/-! ## histories -/

/-- a handover that nobody disturbs is what an answer comes to that is taken on -/
theorem Scene.handover_install {id : Nat} {response : Response} {clock : Int} {q : Inquiry}
    {w : Work} (open_ : s.inquiries.find? (fun i => i.id == id) = some q)
    (judged : s.judgeAnswer su response = .ok (.newJob, some w)) :
    Leads su ⟨s, .free⟩ ⟨((s.without q).install w clock).1.resume q.asker, .free⟩ := by
  have lock : Next su ⟨s, .free⟩ ⟨s.without q, .locked q w clock⟩ := .lock open_ judged
  have hold : Leads su ⟨s, .free⟩ ⟨_, .replaced q s.slot⟩ :=
    ((Relation.ReflTransGen.single lock).tail .silence).tail .replace
  exact (hold.tail .relieve).tail .unlock

/-- every history is a run of scenes -/
theorem History.scene (h : History su) : Scene.Leads su .start ⟨h.state, .free⟩ := by
  induction h using History.induction with
  | start => exact .refl
  | extend h m t es hs ih =>
    have quiet (hk : t.slot = h.state.slot) : Scene.Leads su .start ⟨t, .free⟩ :=
      ih.tail (.move hs hk (.inl rfl))
    cases State.transition_of_step hs with
    | install open_ judged => exact ih.trans (Scene.handover_install open_ judged)
    | keep | fail => exact quiet (State.slot_resume ..)
    | _ => exact quiet rfl

end HeaderMiner.Miner
