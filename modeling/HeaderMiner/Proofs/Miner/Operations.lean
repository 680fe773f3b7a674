import HeaderMiner.Proofs.Miner.Transition
import HeaderMiner.Proofs.Worker.Cancellation
/-!
# What the operations of a miner change

Stopping touches nothing but tokens, letting an asker go on touches nothing but the run and the
loop, and taking on new work leaves a slot, a clock and tokens that are known beforehand
(`install_eq`); whether a loop is started then is a matter of `launch` alone.
-/

namespace HeaderMiner.Miner

/-! ## the focus and the searches of a loop -/

/-- what a loop works on, once it has looked at the slot -/
def Loop.focus? : Loop → Option Focus
  | .ready f | .round f _ _ | .pause f | .submission f _ | .polling f => some f
  | _ => none

def Loop.searches : Loop → List Search
  | .round _ _ qs => qs
  | _ => []

theorem Focus.turnTo_job (f : Focus) (slot : Option Job) :
    (f.turnTo slot).job = slot.getD f.job := by
  unfold turnTo
  dsimp only
  split <;> rfl

theorem Focus.turnTo_identity {f : Focus} {slot : Option Job} :
    (f.turnTo slot).identity = (slot.getD f.job).identity := by
  unfold turnTo
  dsimp only
  split
  · next h => exact h.symm
  · rfl

theorem Search.ofRequests_cons (job : Token) (ts : Tokens) (r : Request) (rs : List Request) :
    ofRequests job ts (r :: rs) =
      ({ request := r, parent := ts.next :: job } :: (ofRequests job (ts.child job).2 rs).1,
        (ofRequests job (ts.child job).2 rs).2) := rfl

theorem Search.tokens_ofRequests (job : Token) (ts : Tokens) (rs : List Request) :
    (ofRequests job ts rs).2 = { ts with next := ts.next + rs.length } := by
  induction rs generalizing ts with
  | nil => rfl
  | cons r rs ih =>
    rw [ofRequests_cons, ih, List.length_cons]
    simp [Tokens.child, Nat.add_comm, Nat.add_left_comm]

theorem Search.map_request_ofRequests (job : Token) (ts : Tokens) (rs : List Request) :
    (ofRequests job ts rs).1.map (·.request) = rs := by
  induction rs generalizing ts with
  | nil => rfl
  | cons r rs ih => rw [ofRequests_cons, List.map_cons, ih]

theorem Search.parent_ofRequests {job : Token} {ts : Tokens} {rs : List Request} {q : Search}
    (h : q ∈ (ofRequests job ts rs).1) :
    ∃ k < ts.next + rs.length, q.parent = k :: job := by
  induction rs generalizing ts with
  | nil => cases h
  | cons r rs ih =>
    rw [ofRequests_cons] at h
    rw [List.length_cons]
    rcases List.mem_cons.1 h with rfl | h
    · exact ⟨ts.next, by omega, rfl⟩
    · obtain ⟨k, hk, hp⟩ := ih h
      exact ⟨k, by simp only [Tokens.child] at hk; omega, hp⟩

namespace State

variable {s : State}

/-! ## resuming and stopping -/

/-- who has asked goes on, and only the loop's own request moves the loop -/
theorem resume_eq (s : State) (a : Asker) :
    ∃ run loop, s.resume a = { s with run, loop } ∧
      (loop = s.loop ∨ ∃ f, s.loop = .polling f ∧ loop = .ready f) := by
  unfold resume
  split
  · exact ⟨_, _, rfl, .inl rfl⟩
  · next f hf => exact ⟨_, _, rfl, .inr ⟨f, hf, rfl⟩⟩
  · exact ⟨_, _, rfl, .inl rfl⟩

theorem frame_resume {α : Type} (g : State → α) (hg : ∀ s run loop, g { s with run, loop } = g s)
    (s : State) (a : Asker) : g (s.resume a) = g s := by
  obtain ⟨run, loop, he, _⟩ := resume_eq s a
  rw [he]
  exact hg s run loop

theorem slot_resume (s : State) (a : Asker) : (s.resume a).slot = s.slot :=
  frame_resume State.slot (fun _ _ _ => rfl) s a

theorem loop_resume {α : Type} (g : Loop → α) (hg : ∀ f, g (.ready f) = g (.polling f)) (s : State)
    (a : Asker) : g (s.resume a).loop = g s.loop := by
  obtain ⟨run, loop, he, hl⟩ := resume_eq s a
  rw [he]
  rcases hl with rfl | ⟨f, hf, rfl⟩
  · rfl
  · rw [hf]
    exact hg f

theorem isStopped_stop (s : State) : s.stop.isStopped = true := by
  show (s.registry.stopAll (s.tokens.cancel s.shutdown)).isCancelled s.shutdown = true
  rw [Registry.isCancelled_stopAll_iff, Tokens.isCancelled_cancel_iff]
  exact .inr (.inl (List.suffix_refl _))

/-! ## taking on new work -/

/-- cancels the job that has been replaced, if there has been one -/
def retire (outgoing : Option Job) (ts : Tokens) : Tokens :=
  match outgoing with
  | some old => ts.cancel old.token
  | none => ts

@[simp] theorem next_retire (outgoing : Option Job) (ts : Tokens) :
    (retire outgoing ts).next = ts.next := by
  cases outgoing <;> rfl

theorem mem_cancelled_retire {outgoing : Option Job} {ts : Tokens} {c : Token} :
    c ∈ (retire outgoing ts).cancelled ↔
      (∃ old, outgoing = some old ∧ old.token = c) ∨ c ∈ ts.cancelled := by
  cases outgoing with
  | none => simp [retire]
  | some old => simp [retire, Tokens.cancel, eq_comm]

/-- a job that is replaced takes everything under it down, and nothing else -/
theorem isCancelled_retire_iff {outgoing : Option Job} {ts : Tokens} {t : Token} :
    (retire outgoing ts).isCancelled t = true ↔
      (∃ old, outgoing = some old ∧ old.token <:+ t) ∨ ts.isCancelled t = true := by
  cases outgoing with
  | none => simp [retire]
  | some old => simp [retire, Tokens.isCancelled_cancel_iff]

/-- the tokens when new work has been taken on: there is one more, and the outgoing job's is
cancelled -/
def relieved (s : State) : Tokens :=
  let ts := ((s.registry.stopAll s.tokens).child s.shutdown).2
  match s.slot with
  | some old => ts.cancel old.token
  | none => ts

def jobOf (s : State) (w : Work) : Job := ⟨w, s.tokens.next :: s.shutdown⟩

/-- new work in the slot, before a loop is started for it -/
def seated (s : State) (w : Work) (clock : Int) : State :=
  { s with offset := (w.time.toNat : Int) - clock, tokens := s.relieved, slot := some (s.jobOf w) }

theorem install_eq (s : State) (w : Work) (clock : Int) :
    s.install w clock =
      ((s.seated w clock).launch.1,
        [.stoppedAll, .installed (s.jobOf w)] ++ (s.seated w clock).launch.2) := by
  have hj : s.jobOf w = ⟨w, (s.registry.stopAll s.tokens).next :: s.shutdown⟩ := by
    rw [Registry.next_stopAll]
    rfl
  rw [seated, hj]
  rfl

theorem relieved_eq (s : State) :
    s.relieved = retire s.slot ((s.registry.stopAll s.tokens).child s.shutdown).2 := rfl

theorem isCancelled_relieved_iff {t : Token} :
    s.relieved.isCancelled t = true ↔
      (∃ old, s.slot = some old ∧ old.token <:+ t) ∨
        (s.registry.stopAll s.tokens).isCancelled t = true := by
  rw [relieved_eq, isCancelled_retire_iff, Tokens.isCancelled_child]

theorem launch_eq (s : State) :
    (∃ mining loop, s.launch.1 = { s with mining, loop }) ∧
      (s.launch = (s, []) ∧ (s.isStopped = true ∨ s.mining = true) ∨
        s.launch = ({ s with mining := true, loop := .started }, [.launched]) ∧
          s.isStopped = false ∧ s.mining = false) := by
  unfold launch
  split
  · next h => exact ⟨⟨_, _, rfl⟩, .inl ⟨rfl, by simpa using h⟩⟩
  · next h => exact ⟨⟨_, _, rfl⟩, .inr ⟨rfl, by simpa using h⟩⟩

/-- apart from the loop, new work leaves what `seated` says -/
theorem exists_install (s : State) (w : Work) (clock : Int) :
    ∃ mining loop, (s.install w clock).1 = { s.seated w clock with mining, loop } := by
  rw [install_eq]
  exact (launch_eq (s.seated w clock)).1

theorem loop_launch_eq_or (s : State) : s.launch.1.loop = s.loop ∨ s.launch.1.loop = .started := by
  rcases (launch_eq s).2 with ⟨he, _⟩ | ⟨he, _⟩
  · exact .inl (by rw [he])
  · exact .inr (by rw [he])

/-- new work leaves the loop alone, or a loop has just been started for it -/
theorem loop_install_eq_or (s : State) (w : Work) (clock : Int) :
    (s.install w clock).1.loop = s.loop ∨ (s.install w clock).1.loop = .started := by
  rw [install_eq]
  exact loop_launch_eq_or (s.seated w clock)

theorem mem_install {w : Work} {clock : Int} {e a : Event} (h : e ∈ (s.install w clock).2 ++ [a]) :
    e = .stoppedAll ∨ e = .installed (s.jobOf w) ∨ e = .launched ∨ e = a := by
  have hl : (s.seated w clock).launch.2 ⊆ [.launched] := by
    rcases (launch_eq (s.seated w clock)).2 with ⟨he, _⟩ | ⟨he, _⟩
    · rw [he]
      exact List.nil_subset _
    · rw [he]
      exact List.Subset.refl _
  rw [install_eq] at h
  rcases List.mem_append.1 h with h | h
  · rcases List.mem_append.1 h with h | h
    · rcases List.mem_cons.1 h with h | h
      · exact .inl h
      · exact .inr (.inl (List.mem_singleton.1 h))
    · exact .inr (.inr (.inl (List.mem_singleton.1 (hl h))))
  · exact .inr (.inr (.inr (List.mem_singleton.1 h)))

end State

end HeaderMiner.Miner
