import HeaderMiner.Proofs.Trace
import HeaderMiner.Proofs.Worker.Usage
/-!
# Who holds a device, and who has cancelled what

A history is any sequence of acts of the callers of a new registry.  In each of them the registry
knows the jobs that are held, and no more than one for each device, so a job can begin exactly where
none is held and dropping one frees its device alone (`History.held_exactly`).

Which tokens are cancelled can be told from the acts alone: those that stand under a token that callers
have cancelled, or under the token of a job that has been cancelled or has been stopped while it was held
(`History.isCancelled_iff`).  So a job is cancelled if its parent is, or if it has been cancelled or
stopped itself.  A stop spares other jobs unless they have been begun under the token of a job that it
reaches, which callers are free to do (`History.not_always_spared`).
-/

namespace HeaderMiner.Registry.Usage

abbrev History := Trace (fun (u : Usage) a => (u.act a).map (·.2)) {}

namespace History

variable {g h : History} {a : Act} {u : Usage} {j k : Job} {c t parent : Token} {d : Nat}

theorem exists_step {v : Usage} (ha : (u.act a).map (·.2) = some v) : ∃ x, Step u a x v := by
  obtain ⟨⟨x, u⟩, hx, rfl⟩ := Option.map_eq_some_iff.1 ha
  exact ⟨x, act_eq_some_iff.1 hx⟩

theorem regular (h : History) : Regular h.state := by
  induction h using Trace.induction with
  | start => exact regular_empty
  | extend h a u ha ih =>
    obtain ⟨x, s⟩ := exists_step ha
    exact ih.step s

/-! ## the acts that reach a token -/

/-- a token or one above it has been cancelled by callers -/
def Cancels (h : History) (t : Token) : Prop := ∃ g c, h.Makes g (.cancel c) ∧ c <:+ t

/-- a job has been cancelled, or has been stopped while it was held -/
def Stops (h : History) (j : Job) : Prop := ∃ g a, h.Makes g a ∧ g.state.Stops a j

theorem own_of_cancel (hg : h.Makes g (.cancel c)) : c ∈ h.state.own := by
  induction h using Trace.induction with
  | start => exact absurd hg (Trace.not_makes_start _ _)
  | extend h a u ha ih =>
    obtain ⟨x, s⟩ := exists_step ha
    refine s.own_subset ?_
    rcases Trace.makes_extend.1 hg with hg | ⟨-, rfl⟩
    · exact ih hg
    · cases s with
      | cancel own => exact own

theorem begun_of_stops (hs : Stops h j) : j ∈ h.state.begun := by
  obtain ⟨g, a, hg, hs⟩ := hs
  induction h using Trace.induction with
  | start => exact absurd hg (Trace.not_makes_start _ _)
  | extend h b u hb ih =>
    obtain ⟨x, s⟩ := exists_step hb
    refine s.begun_subset ?_
    rcases Trace.makes_extend.1 hg with hg | ⟨rfl, rfl⟩
    · exact ih hg
    · exact s.begun_of_stops (regular g) hs

variable (ha : (h.state.act a).map (·.2) = some u)

theorem cancels_extend :
    Cancels (h.extend a u ha) t ↔ Cancels h t ∨ ∃ c, a = .cancel c ∧ c <:+ t := by
  constructor
  · rintro ⟨g, c, hg, hc⟩
    rcases Trace.makes_extend.1 hg with hg | ⟨-, rfl⟩
    · exact .inl ⟨g, c, hg, hc⟩
    · exact .inr ⟨c, rfl, hc⟩
  · rintro (⟨g, c, hg, hc⟩ | ⟨c, rfl, hc⟩)
    · exact ⟨g, c, hg.extend ha, hc⟩
    · exact ⟨h, c, Trace.makes_extend.2 (.inr ⟨rfl, rfl⟩), hc⟩

theorem stops_extend : Stops (h.extend a u ha) j ↔ Stops h j ∨ h.state.Stops a j := by
  constructor
  · rintro ⟨g, b, hg, hb⟩
    rcases Trace.makes_extend.1 hg with hg | ⟨rfl, rfl⟩
    · exact .inl ⟨g, b, hg, hb⟩
    · exact .inr hb
  · rintro (⟨g, b, hg, hb⟩ | hb)
    · exact ⟨g, b, hg.extend ha, hb⟩
    · exact ⟨h, a, Trace.makes_extend.2 (.inr ⟨rfl, rfl⟩), hb⟩

/-- cancelled is what stands under a token that callers have cancelled, or under the token of a job
that has been stopped -/
theorem isCancelled_iff (h : History) :
    h.state.tokens.isCancelled t = true ↔ Cancels h t ∨ ∃ j, Stops h j ∧ j.token <:+ t := by
  induction h using Trace.induction with
  | start =>
    refine iff_of_false Bool.false_ne_true ?_
    rintro (⟨g, c, hg, -⟩ | ⟨j, ⟨g, a, hg, -⟩, -⟩)
    · exact Trace.not_makes_start _ _ hg
    · exact Trace.not_makes_start _ _ hg
  | extend h a u ha ih =>
    -- what one more act cancels is the same two kinds of tokens
    obtain ⟨x, s⟩ := exists_step ha
    refine ((regular h).isCancelled_iff s).trans ?_
    simp only [cancels_extend, stops_extend, or_and_right, exists_or]
    rw [ih]
    exact or_or_or_comm ..

theorem isCancelled_of_isOutside (h : History) (ht : h.state.IsOutside t) :
    h.state.tokens.isCancelled t = true ↔ Cancels h t := by
  rw [isCancelled_iff]
  refine or_iff_left ?_
  rintro ⟨j, hj, hs⟩
  exact ht j (begun_of_stops hj) hs

/-- a job is cancelled if its parent is, or if it has been cancelled or stopped itself -/
theorem isCancelled_job (h : History) (hj : j ∈ h.state.begun) :
    h.state.tokens.isCancelled j.token = true ↔
      h.state.tokens.isCancelled j.parent = true ∨ Stops h j := by
  have hr := regular h
  -- what strikes the job's token is no token of the callers' own, and no other job
  have hown : Cancels h j.token ↔ Cancels h j.parent := by
    refine exists_congr fun g => exists_congr fun c => and_congr_right fun hg => ?_
    rw [hr.suffix_token_iff hj]
    exact or_iff_right (hr.ne_token (own_of_cancel hg) hj)
  have hjob : (∃ k, Stops h k ∧ k.token <:+ j.token) ↔
      (∃ k, Stops h k ∧ k.token <:+ j.parent) ∨ Stops h j := by
    constructor
    · rintro ⟨k, hk, hs⟩
      rcases (hr.suffix_token_iff hj).1 hs with he | hs
      · exact .inr (hr.eq_of_token (begun_of_stops hk) hj he ▸ hk)
      · exact .inl ⟨k, hk, hs⟩
    · rintro (⟨k, hk, hs⟩ | hs)
      · exact ⟨k, hk, (hr.suffix_token_iff hj).2 (.inr hs)⟩
      · exact ⟨j, hs, List.suffix_rfl⟩
  rw [isCancelled_iff, isCancelled_iff, hown, hjob, or_assoc]

/-! ## what comes next -/

theorem act_begin_of_held (h : History) (hp : parent ∈ h.state.hand)
    (hd : ∃ j ∈ h.state.held, j.device = d) :
    h.state.act (.begin d parent) = some (.refused (.jobInProgress d), h.state) := by
  obtain ⟨j, hj, hd⟩ := hd
  have busy := (regular h).find?_eq_some_iff.2 ⟨j, hj, hd, rfl⟩
  exact act_eq_some_iff.2 (.refuse hp busy)

/-- a job begins where none is held, and is cancelled from birth if its parent is -/
theorem exists_begun (h : History) (hp : parent ∈ h.state.hand)
    (hd : ¬ ∃ j ∈ h.state.held, j.device = d) :
    ∃ j u, h.state.act (.begin d parent) = some (.begun j, u) ∧ j.device = d ∧ j.parent = parent ∧
      j ∉ h.state.begun ∧ u.held = h.state.held ++ [j] ∧
      u.tokens.isCancelled j.token = h.state.tokens.isCancelled parent ∧
      ∀ t, u.tokens.isCancelled t = h.state.tokens.isCancelled t := by
  have free := (regular h).find?_eq_none_iff.2 fun j hj he => hd ⟨j, hj, he⟩
  refine ⟨_, _, act_eq_some_iff.2 (.begin hp free rfl), rfl, rfl, fun hj => ?_, rfl, ?_, ?_⟩
  · exact (regular h).child_not_mem_hand parent (token_mem_hand hj)
  · exact Tokens.isCancelled_child_self (regular h).sound parent
  · exact fun _ => rfl

theorem exists_dropped (h : History) (hj : j ∈ h.state.held) :
    ∃ u, h.state.act (.drop j) = some (.done, u) ∧ u.held = h.state.held.erase j ∧
      u.tokens = h.state.tokens ∧
      ∀ d, u.registry.find? d = if d = j.device then none else h.state.registry.find? d :=
  ⟨_, act_eq_some_iff.2 (.drop hj), rfl, rfl, find?_release _ _⟩

/-- some held jobs are stopped: they are cancelled, and with them what stands under their tokens -/
structure StopsOnly (s : Usage) (reached : Job → Prop) (u : Usage) : Prop where
  rest : u = { s with tokens := u.tokens }
  tokens : ∀ t, u.tokens.isCancelled t = true ↔
    s.tokens.isCancelled t = true ∨ ∃ j, reached j ∧ j.token <:+ t
  outside : ∀ t, s.IsOutside t → u.tokens.isCancelled t = s.tokens.isCancelled t
  /-- of the jobs that have been begun outside of others, no other is cancelled -/
  jobs : ∀ j ∈ s.begun, s.IsOutside j.parent →
    (u.tokens.isCancelled j.token = true ↔ s.tokens.isCancelled j.token = true ∨ reached j)

theorem stopsOnly_of_step (h : History) {x : Answer} {reached : Job → Prop}
    (s : Step h.state a x u) (rest : u = { h.state with tokens := u.tokens })
    (hc : ∀ c, a ≠ .cancel c) (hs : ∀ j, h.state.Stops a j ↔ reached j) :
    StopsOnly h.state reached u := by
  have hr := regular h
  have tokens (t : Token) : u.tokens.isCancelled t = true ↔
      h.state.tokens.isCancelled t = true ∨ ∃ j, reached j ∧ j.token <:+ t := by
    rw [hr.isCancelled_iff s]
    simp only [hs, hc, false_and, exists_false, false_or]
  have begun {j : Job} (hj : reached j) : j ∈ h.state.begun := s.begun_of_stops hr ((hs j).2 hj)
  refine ⟨rest, tokens, fun t ht => ?_, fun j hj hp => ?_⟩
  · rw [Bool.eq_iff_iff, tokens]
    refine or_iff_left ?_
    rintro ⟨j, hj, hsuf⟩
    exact ht j (begun hj) hsuf
  · rw [tokens]
    refine or_congr_right ⟨?_, fun hj => ⟨j, hj, List.suffix_rfl⟩⟩
    rintro ⟨k, hk, hsuf⟩
    rcases (hr.suffix_token_iff hj).1 hsuf with he | hsuf
    · exact hr.eq_of_token (begun hk) hj he ▸ hk
    · exact absurd hsuf (hp k (begun hk))

theorem exists_stopped (h : History) (d : Nat) :
    ∃ b u, h.state.act (.stop d) = some (.stopped b, u) ∧
      (b = true ↔ ∃ j ∈ h.state.held, j.device = d) ∧
      StopsOnly h.state (fun j => j ∈ h.state.held ∧ j.device = d) u := by
  refine ⟨_, _, act_eq_some_iff.2 (.stop d), ?_, stopsOnly_of_step h (.stop d) rfl nofun ?_⟩
  · rw [stop_fst, Option.isSome_iff_exists]
    simp only [(regular h).find?_eq_some_iff]
    exact ⟨fun ⟨_, j, hj, hd, _⟩ => ⟨j, hj, hd⟩, fun ⟨j, hj, hd⟩ => ⟨_, j, hj, hd, rfl⟩⟩
  · simp [Usage.Stops, eq_comm]

theorem exists_stoppedAll (h : History) :
    ∃ u, h.state.act .stopAll = some (.done, u) ∧
      StopsOnly h.state (fun j => j ∈ h.state.held) u := by
  refine ⟨_, act_eq_some_iff.2 .stopAll, stopsOnly_of_step h .stopAll rfl nofun ?_⟩
  simp [Usage.Stops]

/-! ## all of it -/

/-- In every history, the registered devices are those of the held jobs, each of them held once; a job
begins exactly where none is held, and dropping it frees its own device alone.  A job is cancelled
exactly if its parent is, or if it has been cancelled or stopped while it was held.  Stopping reaches the
held jobs that it is meant for and what stands under their tokens, so it spares all other jobs that have
been begun outside of jobs, and all tokens outside of them. -/
theorem held_exactly (h : History) :
    ((h.state.held.map Job.device).Nodup ∧ h.state.held ⊆ h.state.begun ∧
      h.state.registry.size = h.state.held.length ∧
      ∀ d t, h.state.registry.find? d = some t ↔ ∃ j ∈ h.state.held, j.device = d ∧ j.token = t) ∧
    (∀ d, ∀ parent ∈ h.state.hand,
      ((∃ j ∈ h.state.held, j.device = d) →
        h.state.act (.begin d parent) = some (.refused (.jobInProgress d), h.state)) ∧
      ((¬ ∃ j ∈ h.state.held, j.device = d) →
        ∃ j u, h.state.act (.begin d parent) = some (.begun j, u) ∧ j.device = d ∧
          j.parent = parent ∧ j ∉ h.state.begun ∧ u.held = h.state.held ++ [j] ∧
          u.tokens.isCancelled j.token = h.state.tokens.isCancelled parent ∧
          ∀ t, u.tokens.isCancelled t = h.state.tokens.isCancelled t)) ∧
    (∀ j ∈ h.state.held, ∃ u, h.state.act (.drop j) = some (.done, u) ∧
      u.held = h.state.held.erase j ∧ u.tokens = h.state.tokens ∧
      ∀ d, u.registry.find? d = if d = j.device then none else h.state.registry.find? d) ∧
    ((∀ j ∈ h.state.begun, h.state.tokens.isCancelled j.token = true ↔
        h.state.tokens.isCancelled j.parent = true ∨ Stops h j) ∧
      (∀ t, h.state.tokens.isCancelled t = true ↔
        Cancels h t ∨ ∃ j, Stops h j ∧ j.token <:+ t) ∧
      ∀ t, h.state.IsOutside t → (h.state.tokens.isCancelled t = true ↔ Cancels h t)) ∧
    (∀ d, ∃ b u, h.state.act (.stop d) = some (.stopped b, u) ∧
      (b = true ↔ ∃ j ∈ h.state.held, j.device = d) ∧
      StopsOnly h.state (fun j => j ∈ h.state.held ∧ j.device = d) u) ∧
    ∃ u, h.state.act .stopAll = some (.done, u) ∧
      StopsOnly h.state (fun j => j ∈ h.state.held) u := by
  have hr := regular h
  have found : ∀ d t, h.state.registry.find? d = some t ↔
      ∃ j ∈ h.state.held, j.device = d ∧ j.token = t := fun _ _ => hr.find?_eq_some_iff
  refine ⟨⟨hr.devices, hr.begun, ?_, found⟩, fun d parent hp => ?_, ?_, ?_, ?_, ?_⟩
  · rw [Registry.size, hr.jobs, List.length_map]
  · exact ⟨act_begin_of_held h hp, exists_begun h hp⟩
  · exact fun j hj => exists_dropped h hj
  · exact ⟨fun j hj => isCancelled_job h hj, fun t => isCancelled_iff h,
      fun t ht => isCancelled_of_isOutside h ht⟩
  · exact exists_stopped h
  · exact exists_stoppedAll h

namespace Trial

def alone : History := (Trace.start.go .root rfl).go (.begin 0 [0]) rfl

/-- another job under the same token -/
def beside : History := alone.go (.begin 1 [0]) rfl

/-- another job under the token of the first -/
def nested : History := alone.go (.begin 1 [1, 0]) rfl

end Trial

theorem held_exactly_beside :
    Trial.beside.state.IsOutside [0] ∧ ∃ b u, Trial.beside.state.act (.stop 0) = some (.stopped b, u) ∧
      b = true ∧ u.tokens.isCancelled [0] = false ∧ u.tokens.isCancelled [2, 0] = false := by
  have outside : Trial.beside.state.IsOutside [0] := by
    show ∀ j ∈ [(⟨0, [0], [1, 0]⟩ : Job), ⟨1, [0], [2, 0]⟩], ¬ j.token <:+ [0]
    decide
  obtain ⟨b, u, hact, hb, hu⟩ := (held_exactly Trial.beside).2.2.2.2.1 0
  have second : ¬ u.tokens.isCancelled [2, 0] = true := by
    rw [hu.jobs ⟨1, [0], [2, 0]⟩ (by decide) outside]
    decide
  exact ⟨outside, b, u, hact, hb.2 (by decide), hu.outside [0] outside,
    Bool.eq_false_iff.2 second⟩

/-- stopping a device reaches a job on another device that has been begun under the token of its job,
and the token that this was begun under -/
theorem not_always_spared :
    ¬ ∀ (h : History) (d : Nat) (b : Bool) (u : Usage),
      h.state.act (.stop d) = some (.stopped b, u) → ∀ j ∈ h.state.held, j.device ≠ d →
        u.tokens.isCancelled j.parent = h.state.tokens.isCancelled j.parent ∧
          u.tokens.isCancelled j.token = h.state.tokens.isCancelled j.token := by
  intro h
  have spared := h Trial.nested 0 true _ rfl ⟨1, [1, 0], [2, 1, 0]⟩ (by decide) (by decide)
  exact absurd spared.2 (by decide)

end History

end HeaderMiner.Registry.Usage
