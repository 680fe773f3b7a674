import Mathlib.Data.List.Chain
import HeaderMiner.Proofs.Miner.Assertions
import HeaderMiner.Proofs.Miner.Lifetime
/-!
# What an answer to a request for work does

The outcome of an answer is settled by the answer, the network and the slot at the moment in which
it arrives; what the request has named, and what was in the slot when it was sent, play no part.
Any outcome but a new job leaves everything alone (`Keeps`), and a new job is taken on whole
(`Takes`).  As only work of another identity than the slot's is taken on, and the slot holds the
last job, no two jobs in a row have one identity.
-/

namespace HeaderMiner.Miner

namespace State

variable {su : Setup} {s t : State} {m : Move} {es : List Event} {response : Response}
  {clock : Int}

/-- what a request leaves alone that brings no new job: slot, clock, registry and all tokens, unless
it is a poll that tells the miner to stop because of a fatal error -/
structure Keeps (s : State) (a : Asker) (o : Except Error Outcome) (t : State) : Prop where
  slot : t.slot = s.slot
  offset : t.offset = s.offset
  mining : t.mining = s.mining
  registry : t.registry = s.registry
  tokens : (a = .caller ∨ ∀ e, o = .error e → e.isFatal = false) → t.tokens = s.tokens
  fatal : a ≠ .caller → (∃ e, o = .error e ∧ e.isFatal = true) → t.tokens = s.stop.tokens

/-- what a request does that brings a new job -/
structure Takes (s : State) (w : Work) (clock : Int) (t : State) : Prop where
  slot : t.slot = some (s.jobOf w)
  offset : t.offset = (w.time.toNat : Int) - clock
  registry : t.registry = s.registry
  stopped : t.isStopped = s.isStopped
  new : t.isSuperseded (s.jobOf w) = s.isStopped
  old : ∀ j, s.slot = some j → t.isSuperseded j = true
  /-- there is a loop for the new job, or the miner has been stopped; nothing starts another loop
  when the one there was has broken an assertion -/
  loop : s.isStopped = true ∨ t.loop.isAlive = true ∧ t.mining = true ∨ ∃ v, s.loop = .broken v

/-! ## the outcome -/

/-- an outcome is settled by the answer, the network and the identity in the slot -/
theorem outcome_iff {o : Except Error Outcome}
    (h : (s.judgeAnswer su response).map Prod.fst = o) :
    (∀ e, o = .error e ↔ response = .error e ∨
      ∃ a, response = .ok (some a) ∧ a.validate su.network = .error e) ∧
    (o = .ok .noWork ↔ response = .ok none) ∧
    (o = .ok .unchanged ↔ ∃ a w, response = .ok (some a) ∧ a.validate su.network = .ok w ∧
      s.identity? = some w.identity) ∧
    (o = .ok .newJob ↔ ∃ a w, response = .ok (some a) ∧ a.validate su.network = .ok w ∧
      s.identity? ≠ some w.identity) := by
  subst h
  match response with
  | .error e => simp [judgeAnswer_error, Except.map]
  | .ok none => simp [judgeAnswer_none, Except.map]
  | .ok (some a) =>
    cases hv : a.validate su.network with
    | error e => simp [judgeAnswer_of_error hv, Except.map, hv]
    | ok w =>
      by_cases hi : s.identity? = some w.identity
      · simp [judgeAnswer_of_ok hv, Except.map, hv, hi]
      · simp [judgeAnswer_of_ok hv, Except.map, hv, hi]

/-! ## the two ways of an answer -/

/-- an answer without new work changes nothing; what a poll makes of an error comes after -/
theorem receive_of_kept {o : Except Error Outcome}
    (h : s.judgeAnswer su response = o.map fun o => (o, none)) (clock : Int) :
    s.receive su response clock = (o, s, []) := by
  cases o with
  | error e => exact receive_of_error h clock
  | ok o => exact receive_of_none h clock

/-- new work is taken on whole -/
theorem takes_install {jobs : List Job} (l : Ledger s jobs) (v : Lifetime s)
    (q : Inquiry) (w : Work) (clock : Int) :
    Takes s w clock (((s.without q).install w clock).1.resume q.asker) := by
  obtain ⟨run, loop, he, hl⟩ := resume_eq ((s.without q).install w clock).1 q.asker
  have hw : Ledger (s.without q) jobs := l.without q
  have hr : s.relieved.isCancelled s.shutdown = s.isStopped := hw.isCancelled_relieved_root
  rw [he, install_eq]
  obtain ⟨mining, loop', hu⟩ := (launch_eq ((s.without q).seated w clock)).1
  constructor
  · rw [hu]; rfl
  · rw [hu]; rfl
  · rw [hu]; rfl
  · rw [hu]; exact hr
  · rw [hu]; exact hw.isCancelled_relieved_new w
  · intro j hj
    rw [hu]
    exact hw.isCancelled_relieved_old (hw.mem_of_slot hj)
  · rw [install_eq] at hl
    show _ ∨ loop.isAlive = true ∧ _ ∨ _
    rcases (launch_eq ((s.without q).seated w clock)).2 with ⟨hn, hm⟩ | ⟨hn, _, _⟩
    · rw [hn] at hl ⊢
      rcases hm with hs | hm
      · exact .inl (hr.symm.trans hs)
      · rcases hl with rfl | ⟨f, _, rfl⟩
        · rcases v.begun hm with ha | hv
          · exact .inr (.inl ⟨ha, hm⟩)
          · exact .inr (.inr hv)
        · exact .inr (.inl ⟨rfl, hm⟩)
    · rw [hn] at hl ⊢
      rcases hl with rfl | ⟨f, hf, _⟩
      · exact .inr (.inl ⟨rfl, rfl⟩)
      · cases hf

/-- a request that brings no new job keeps the slot, and a poll that has met a fatal error stops -/
theorem keeps_of_mild {a : Asker} {o : Except Error Outcome} {q : Inquiry}
    (hm : ∀ e, o = .error e → a ≠ .caller → e.isFatal = false) :
    Keeps s a o ((s.without q).resume a) := by
  obtain ⟨run, loop, he, _⟩ := resume_eq (s.without q) a
  rw [he]
  refine ⟨rfl, rfl, rfl, rfl, fun _ => rfl, ?_⟩
  rintro ha ⟨e, rfl, hf⟩
  rw [hm e rfl ha] at hf
  cases hf

theorem keeps_of_fatal {a : Asker} {e : Error} {q : Inquiry} (ha : a ≠ .caller)
    (hf : e.isFatal = true) : Keeps s a (.error e) (((s.without q).fail e).resume a) := by
  obtain ⟨run, loop, he, _⟩ := resume_eq ((s.without q).fail e) a
  rw [he]
  refine ⟨rfl, rfl, rfl, rfl, ?_, fun _ _ => rfl⟩
  rintro (hc | hm)
  · exact absurd hc ha
  · rw [hm e rfl] at hf
    cases hf

end State

namespace History

variable {su : Setup}

/-- jobs that are taken on one after the other have different identities -/
theorem isChain_jobs (h : History su) : h.jobs.IsChain fun i j => i.identity ≠ j.identity := by
  induction h using induction with
  | start => exact .nil
  | extend h m t es hs ih =>
    rw [jobs_extend]
    have quiet (he : es.filterMap Event.job? = []) :
        (h.jobs ++ es.filterMap Event.job?).IsChain fun i j => i.identity ≠ j.identity := by
      rwa [he, List.append_nil]
    cases State.transition_of_step hs with
    | @install _ response clock q w _ judged =>
      obtain ⟨_, a, _, _, hi⟩ := State.judgeAnswer_eq_some_iff.1 judged
      rw [State.jobs_install]
      refine ih.append (.singleton _) ?_
      intro i hl j hj
      obtain rfl := Option.some.inj hj
      intro he
      refine hi ?_
      rw [State.identity?, h.ledger.slot, hl, Option.map_some, he]
      rfl
    | _ => exact quiet rfl

/-- Of an answer comes an error, no work, unchanged work or a new job, by what the answer is and by
the identity that is in the slot when it arrives.  Anything but a new job leaves the state as it is,
but that the request is no longer open, and at most a poll stops the miner then; a new job is taken
on whole, and finds a loop, as long as the loop has not been broken from outside. -/
theorem answers_exactly (h : History su) :
    (h.jobs.IsChain fun i j => i.identity ≠ j.identity) ∧
    (∀ v, h.state.loop = .broken v → h.Faults) ∧
    ∀ id response clock t es, h.state.step su (.answer id response clock) = some (t, es) →
      ∃ q ∈ h.state.inquiries, ∃ o, q.id = id ∧ .answered id q.asker o ∈ es ∧
        (∀ e, o = .error e ↔ response = .error e ∨
          ∃ a, response = .ok (some a) ∧ a.validate su.network = .error e) ∧
        (o = .ok .noWork ↔ response = .ok none) ∧
        (o = .ok .unchanged ↔ ∃ a w, response = .ok (some a) ∧ a.validate su.network = .ok w ∧
          h.state.identity? = some w.identity) ∧
        (o = .ok .newJob ↔ ∃ a w, response = .ok (some a) ∧ a.validate su.network = .ok w ∧
          h.state.identity? ≠ some w.identity) ∧
        (o ≠ .ok .newJob →
          (h.state.without q).receive su response clock = (o, h.state.without q, []) ∧
          h.state.Keeps q.asker o t) ∧
        ∀ a w, response = .ok (some a) → a.validate su.network = .ok w → o = .ok .newJob →
          h.state.Takes w clock t := by
  refine ⟨h.isChain_jobs, fun _ hb => faults_of_broken hb, ?_⟩
  intro id response clock t es hs
  cases State.transition_of_step hs with
  | @keep _ _ _ q o open_ judged mild =>
    obtain rfl : q.id = id := by simpa using List.find?_some open_
    have ho : (h.state.judgeAnswer su response).map Prod.fst = o := by
      rw [judged]
      cases o <;> rfl
    obtain ⟨h1, h2, h3, h4⟩ := State.outcome_iff ho
    have hn : o ≠ .ok .newJob := by
      intro hn
      obtain ⟨a, w, rfl, hv, hi⟩ := h4.1 hn
      rw [State.judgeAnswer_of_ok hv, if_neg hi, hn] at judged
      cases judged
    exact ⟨q, List.mem_of_find?_eq_some open_, o, rfl, List.mem_singleton.2 rfl, h1, h2, h3, h4,
      fun _ => ⟨State.receive_of_kept ((State.judgeAnswer_without ..).trans judged) clock,
        State.keeps_of_mild mild⟩, fun _ _ _ _ hj => absurd hj hn⟩
  | @fail _ _ _ q e open_ judged contained fatal =>
    obtain rfl : q.id = id := by simpa using List.find?_some open_
    have ho : (h.state.judgeAnswer su response).map Prod.fst = .error e := by
      rw [judged]
      rfl
    obtain ⟨h1, h2, h3, h4⟩ := State.outcome_iff ho
    exact ⟨q, List.mem_of_find?_eq_some open_, .error e, rfl, List.mem_cons_self, h1, h2, h3, h4,
      fun _ => ⟨State.receive_of_error ((State.judgeAnswer_without ..).trans judged) clock,
        State.keeps_of_fatal contained fatal⟩,
      fun _ _ _ _ hj => nomatch hj⟩
  | @install _ _ _ q w open_ judged =>
    obtain rfl : q.id = id := by simpa using List.find?_some open_
    have ho : (h.state.judgeAnswer su response).map Prod.fst = .ok .newJob := by
      rw [judged]
      rfl
    obtain ⟨h1, h2, h3, h4⟩ := State.outcome_iff ho
    refine ⟨q, List.mem_of_find?_eq_some open_, .ok .newJob, rfl,
      List.mem_append_right _ (List.mem_singleton.2 rfl), h1, h2, h3, h4,
      fun hn => absurd rfl hn, ?_⟩
    intro a v hr hv _
    obtain ⟨_, b, hb, hw, _⟩ := State.judgeAnswer_eq_some_iff.1 judged
    rw [hr] at hb
    cases hb
    rw [hv] at hw
    cases hw
    exact State.takes_install h.ledger h.lifetime q w clock

end History

end HeaderMiner.Miner
