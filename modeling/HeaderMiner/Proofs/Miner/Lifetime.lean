import HeaderMiner.Proofs.Miner.Supersession
/-!
# The life of the mining loop

A loop is started once a job has been taken on and ends only when the miner has been stopped, and
a miner that has been stopped starts no other; so the first loop is the only one.  `Lifetime` is
the part of this that one state shows, and each step keeps it.
-/

namespace HeaderMiner.Miner

/-- a loop that has been started and has not ended; it may have broken an assertion -/
def Loop.IsBegun (l : Loop) : Prop := l.isAlive = true ∨ ∃ v, l = .broken v

namespace State

/-- what a state shows of the life of its loop -/
structure Lifetime (s : State) : Prop where
  begun : s.mining = true → s.loop.IsBegun
  idle : s.mining = false → s.loop = .absent ∨ s.loop = .finished ∧ s.isStopped = true
  started : s.loop = .started → s.slot ≠ none
  unused : s.loop = .absent ∨ s.loop = .started → s.rounds = 0

variable {su : Setup} {s t : State} {jobs : List Job}

/-- a loop that has been started and has not ended is held to be there -/
theorem Lifetime.mining_of_begun (v : Lifetime s) (hb : s.loop.IsBegun) : s.mining = true := by
  rw [← Bool.not_eq_false]
  intro hm
  rcases v.idle hm with hl | ⟨hl, _⟩
  · rw [hl] at hb
    rcases hb with h | ⟨_, h⟩ <;> cases h
  · rw [hl] at hb
    rcases hb with h | ⟨_, h⟩ <;> cases h

theorem Lifetime.goOn (v : Lifetime s) (hb : s.loop.IsBegun) (hm : t.mining = s.mining)
    (ht : t.loop.IsBegun) (hs : t.loop ≠ .started) : Lifetime t where
  begun := fun _ => ht
  idle := by
    intro hf
    rw [hm, v.mining_of_begun hb] at hf
    cases hf
  started := fun h => absurd h hs
  unused := by
    rintro (h | h)
    · rw [h] at ht
      rcases ht with h | ⟨_, h⟩ <;> cases h
    · exact absurd h hs

theorem Lifetime.without (v : Lifetime s) (q : Inquiry) : Lifetime (s.without q) :=
  ⟨v.begun, v.idle, v.started, v.unused⟩

theorem Lifetime.stop (v : Lifetime s) : Lifetime s.stop where
  begun := v.begun
  idle := fun hm => (v.idle hm).imp_right fun h => ⟨h.1, isStopped_stop s⟩
  started := v.started
  unused := v.unused

theorem Lifetime.resume (v : Lifetime s) (a : Asker) : Lifetime (s.resume a) := by
  obtain ⟨run, loop, he, hl⟩ := resume_eq s a
  rw [he]
  rcases hl with rfl | ⟨f, hf, rfl⟩
  · exact ⟨v.begun, v.idle, v.started, v.unused⟩
  · exact v.goOn (hf ▸ .inl rfl) rfl (.inl rfl) nofun

theorem Lifetime.seated (v : Lifetime s) (l : Ledger s jobs) (w : Work) (clock : Int) :
    Lifetime (s.seated w clock) where
  begun := v.begun
  idle := by
    intro hm
    refine (v.idle hm).imp_right fun h => ⟨h.1, ?_⟩
    exact l.isCancelled_relieved_root.trans h.2
  started := fun _ => nofun
  unused := v.unused

/-- a loop is started in a miner that has not been stopped, so it is the first -/
theorem Lifetime.launch (v : Lifetime s) (hj : s.slot ≠ none) : Lifetime s.launch.1 := by
  rcases (launch_eq s).2 with ⟨he, _⟩ | ⟨he, hs, hm⟩
  · rw [he]
    exact v
  · rw [he]
    refine ⟨fun _ => .inl rfl, nofun, fun _ => hj, fun _ => ?_⟩
    rcases v.idle hm with hl | ⟨_, hf⟩
    · exact v.unused (.inl hl)
    · rw [hs] at hf
      cases hf

/-- a loop is started where there has been none or where it has ended; what tells these from a loop
that has just been started is all that changes -/
theorem loop_launch {α : Type} (g : Loop → α) (ha : g .absent = g .started)
    (hf : g .finished = g .started) (v : Lifetime s) : g s.launch.1.loop = g s.loop := by
  rcases (launch_eq s).2 with ⟨he, _⟩ | ⟨he, _, hm⟩
  · rw [he]
  · rw [he]
    rcases v.idle hm with hl | ⟨hl, _⟩
    · rw [hl]
      exact ha.symm
    · rw [hl]
      exact hf.symm

theorem Lifetime.step (v : Lifetime s) (l : Ledger s jobs) {m : Move} {es : List Event}
    (ht : Transition su s m t es) : Lifetime t := by
  have go {k : Loop} (hl : s.loop = k) (hk : k.IsBegun) {t : State} (hm : t.mining = s.mining)
      (hb : t.loop.IsBegun) (hs : t.loop ≠ .started) : Lifetime t := v.goOn (hl ▸ hk) hm hb hs
  cases ht with
  | keep => exact (v.without _).resume _
  | @fail _ _ _ q e _ _ _ _ =>
    have hf : Lifetime { s.without q with fatal := s.fatal.or (some e) } :=
      ⟨v.begun, v.idle, v.started, v.unused⟩
    exact hf.stop.resume _
  | @install _ _ clock q w _ _ =>
    rw [install_eq]
    exact (((v.without q).seated (l.without q) w clock).launch nofun).resume _
  | miss loop slot => exact absurd slot (v.started loop)
  | finish _ stopped => exact ⟨nofun, fun _ => .inr ⟨rfl, stopped⟩, nofun, nofun⟩
  | enter loop | dispatch loop | reject loop | begin loop | release loop | pause loop | pass loop
  | submit loop | endPause loop | inquire loop | goOn loop =>
    exact go loop (.inl rfl) rfl (.inl rfl) nofun
  | overrun loop | misfit loop => exact go loop (.inl rfl) rfl (.inr ⟨_, rfl⟩) nofun
  | stop => exact v.stop
  | leaveRun => exact ⟨v.stop.begun, v.stop.idle, v.stop.started, v.stop.unused⟩
  | tick | poll | startRun | fire | endRun => exact ⟨v.begun, v.idle, v.started, v.unused⟩

end State

theorem History.lifetime {su : Setup} (h : History su) : State.Lifetime h.state := by
  induction h using History.induction with
  | start => exact ⟨nofun, fun _ => .inl rfl, nofun, fun _ => rfl⟩
  | extend h m t es hs ih => exact ih.step h.ledger (State.transition_of_step hs)

end HeaderMiner.Miner
