import HeaderMiner.Proofs.Worker.Calls
/-!
# Searches that are cancelled before they begin

A search under a token that is cancelled already sees itself cancelled whenever it looks.  A nonce
search then ends with its first turn, without a hash.  A search by a solver ends with the first look at
it, whatever that look sees first: if it is the token, nothing has been found and nothing is added, but
a solver that is over when it is looked at, and is looked at before the token, decides the search with
whatever it has come to (`History.stillborn_exactly`).  A solver that cannot be started is over at once,
so such a search can end with an error (`History.not_always_quiet`).
-/

namespace HeaderMiner

namespace Solver

variable {l : Look} {e : Ending}

theorem ending?_cancelled (l : Look) :
    l.ending? true = some (if l.solverFirst then (l.gone.map .solver).getD .cancelled
      else .cancelled) := by
  unfold Look.ending?
  cases l.solverFirst with
  | false => rfl
  | true => cases l.gone <;> rfl

/-- a solver that decides a search and does not fail counts -/
theorem ne_of_solver {r : Request} {run : Run} {candidate : Candidate} :
    conclude r (.solver run) ≠ (.ok candidate, {}) := by
  unfold conclude
  dsimp only
  cases run.output.bind parseOutput with
  | error e => exact nofun
  | ok answer => exact fun h => nomatch congrArg (fun x => x.2.hashes) h

end Solver

namespace Call

/-- a search has come back without a match or a proof, and has added nothing -/
def IsQuiet (c : Call) (result : Except Error Candidate) : Prop :=
  (∃ candidate, result = .ok candidate ∧ candidate.isMatch = false ∧ candidate.proof = none) ∧
    c.added = {}

/-- all looks of a search have seen it cancelled -/
structure SeesCancelled (c : Call) : Prop where
  looks : ∀ b ∈ c.looks, b = true
  last : ∀ l e, c.last = some (l, e) → l.ending? true = some e

variable {type : BackendType} {c c' : Call} {stats : Stats} {result : Except Error Candidate}

theorem SeesCancelled.turn (h : c.SeesCancelled) (ht : c.Turn true stats c') : c'.SeesCancelled where
  looks b hb := (ht.looks b hb).elim (h.looks b) id
  last l e hl := (ht.last l e hl).elim (h.last l e) id

theorem last_of_cpu (h : c.Legal .cpu) : c.last = none := by
  cases h with
  | grinding | ground => rfl
  | solving external | solved external => cases external

/-- a nonce search that has never seen itself but cancelled has hashed nothing -/
theorem isQuiet_of_cpu (h : c.Legal .cpu) (hs : c.SeesCancelled) (hd : c.stage = .decided result) :
    c.IsQuiet result := by
  obtain ⟨p, candidate, -, hrun, hover⟩ := h.exists_run
  -- the first look sees it cancelled, or would if there has been none
  have hnow : c.looks.getD 0 true = true := by
    cases hl : c.looks with
    | nil => rfl
    | cons b looks => exact hs.looks b (hl ▸ List.mem_cons_self)
  have houtcome : Grind.outcome c.request.header c.request.target p.nonce p.range
      (c.looks.getD · true) = ⟨none, 0⟩ :=
    (Grinder.resumes_ofRequest c.request p).outcome_eq (Grinder.turn_true _)
      (fun _ hi => absurd hi (Nat.not_lt_zero _)) hnow
  rw [Grind.run_eq, houtcome] at hrun
  obtain ⟨rfl, hadded⟩ := Prod.mk.inj hrun
  exact ⟨⟨_, hover result hd, rfl, rfl⟩, hadded.symm⟩

/-- a search by a solver is quiet exactly if its token has decided it -/
theorem isQuiet_iff_of_conclude {e : Solver.Ending}
    (h : Solver.conclude c.request e = (result, c.added)) : c.IsQuiet result ↔ e = .cancelled := by
  cases e with
  | cancelled =>
    obtain ⟨rfl, hadded⟩ := Prod.mk.inj h
    exact iff_of_true ⟨⟨_, rfl, rfl, rfl⟩, hadded.symm⟩ rfl
  | solver run =>
    refine iff_of_false ?_ nofun
    rintro ⟨⟨candidate, rfl, -, -⟩, hadded⟩
    exact Solver.ne_of_solver (h.trans (by rw [hadded]))

/-- a search by a solver that has only been seen cancelled is quiet unless its solver was over and has
been looked at first -/
theorem isQuiet_iff_of_external (h : c.Legal .external) (hs : c.SeesCancelled)
    (hd : c.stage = .decided result) :
    c.IsQuiet result ↔ ∀ l e, c.last = some (l, e) → l.solverFirst = true → l.gone = none := by
  obtain ⟨l, e, -, hlast, -, hcon⟩ := h.exists_last hd
  have hends := Option.some.inj ((Solver.ending?_cancelled l).symm.trans (hs.last l e hlast))
  rw [isQuiet_iff_of_conclude hcon, ← hends, hlast]
  constructor
  · rintro he _ _ ⟨⟩ hfirst
    rw [if_pos hfirst] at he
    cases ho : l.gone with
    | none => rfl
    | some run =>
      rw [ho] at he
      cases he
  · intro hl
    split
    · next hfirst =>
      rw [hl l e rfl hfirst]
      rfl
    · rfl

theorem isQuiet_iff (h : c.Legal type) (hs : c.SeesCancelled) (hd : c.stage = .decided result) :
    c.IsQuiet result ↔ ∀ l e, c.last = some (l, e) → l.solverFirst = true → l.gone = none := by
  cases type with
  | cpu =>
    refine iff_of_true (isQuiet_of_cpu h hs hd) fun l e hl => ?_
    cases (last_of_cpu h).symm.trans hl
  | external => exact isQuiet_iff_of_external h hs hd

theorem exists_batch? (h : c.Legal .cpu) (ho : ¬ c.IsOver) :
    ∃ stats c', c.batch? true = some (stats, c') ∧ c'.IsOver := by
  cases h with
  | solving external | solved external => cases external
  | ground => exact absurd ⟨_, rfl⟩ ho
  | @grinding r job b p g =>
    unfold batch?
    dsimp only
    rw [g.turn_true]
    exact ⟨_, _, rfl, _, rfl⟩

theorem exists_look? (h : c.Legal .external) (ho : ¬ c.IsOver) (l : Solver.Look) :
    ∃ stats c', c.look? l true = some (stats, c') ∧ c'.IsOver := by
  cases h with
  | grinding cpu | ground cpu => cases cpu
  | solved => exact absurd ⟨_, rfl⟩ ho
  | solving =>
    unfold look?
    dsimp only
    rw [Solver.ending?_cancelled]
    exact ⟨_, _, rfl, _, rfl⟩

end Call

namespace Service

open Registry (Act Job Usage)

variable {type : BackendType} {devices n : Nat} {s t : Service} {m : Move} {c : Call}

/-- a search that was cancelled when it began is cancelled still and has seen nothing else -/
def StaysCancelled (s : Service) : Prop :=
  ∀ c ∈ s.calls, c.stillborn = true → s.seen c = true ∧ c.SeesCancelled

theorem StaysCancelled.act {a : Act} {x : Registry.Answer} {usage : Usage} (h : s.StaysCancelled)
    (hr : s.usage.Regular) (step : s.usage.Step a x usage) :
    StaysCancelled { s with usage } := by
  intro c hc hb
  obtain ⟨hseen, hsees⟩ := h c hc hb
  exact ⟨(hr.isCancelled_iff step).2 (.inl hseen), hsees⟩

theorem StaysCancelled.turn {c' : Call} {stats : Stats} (h : s.StaysCancelled)
    (get : s.calls[n]? = some c) (turn : c.Turn (s.seen c) stats c') :
    StaysCancelled (s.took n stats c') := by
  intro d hd hb
  rcases List.mem_or_eq_of_mem_set hd with hd | rfl
  · exact h d hd hb
  · obtain ⟨hseen, hsees⟩ := h c (List.mem_of_getElem? get) (turn.stillborn ▸ hb)
    refine ⟨?_, hsees.turn (hseen ▸ turn)⟩
    show s.usage.tokens.isCancelled d.job.token = true
    rw [turn.job]
    exact hseen

theorem StaysCancelled.step (h : s.StaysCancelled) (hr : Regular s) (st : Step s m t) :
    t.StaysCancelled := by
  cases st with
  | act _ step => exact h.act hr.usage step
  | leave _ _ step => exact h.act hr.usage step
  | refuse => exact h
  | batch get turn => exact h.turn get (Call.turn_of_batch? turn)
  | look get turn => exact h.turn get (Call.turn_of_look? turn)
  | @call r parent job usage check _ step =>
    intro c hc hb
    rcases List.mem_append.1 hc with hc | hc
    · exact h.act hr.usage step c hc hb
    · obtain rfl := List.mem_singleton.1 hc
      -- the new job's token stands under the caller's, which was cancelled
      obtain ⟨-, -, rfl, htokens, -⟩ := step.begun_iff
      refine ⟨?_, nofun, nofun⟩
      show usage.tokens.isCancelled (s.usage.tokens.child parent).1 = true
      rw [htokens, Tokens.isCancelled_child_self hr.usage.sound]
      exact hb

namespace History

theorem staysCancelled (h : History type devices) : StaysCancelled h.state := by
  induction h using Trace.induction with
  | start => exact fun _ hc => nomatch hc
  | extend h m t ht ih => exact ih.step (regular h) (next_eq_some_iff.1 ht)

/-- A search under a token that was cancelled already is over with its next turn, whatever it looks at
and in whatever order.  When it is over, it comes back without a match or a proof and has added
nothing, unless a solver that was over when it was looked at was looked at before the token. -/
theorem stillborn_exactly (h : History type devices) (n : Nat) (c : Call)
    (get : h.state.calls[n]? = some c) (stillborn : c.stillborn = true) :
    (¬ c.IsOver →
      (type = .cpu → ∃ t c', h.state.next (.batch n) = some t ∧ t.calls[n]? = some c' ∧ c'.IsOver) ∧
      (type = .external → ∀ l, ∃ t c', h.state.next (.look n l) = some t ∧
        t.calls[n]? = some c' ∧ c'.IsOver)) ∧
    (type = .cpu → c.last = none) ∧
    ∀ result, c.stage = .decided result →
      (c.IsQuiet result ↔ ∀ l e, c.last = some (l, e) → l.solverFirst = true → l.gone = none) := by
  have hc := List.mem_of_getElem? get
  have legal : c.Legal type := (type_eq h).1 ▸ ((regular h).keeps c hc).legal
  obtain ⟨hseen, hsees⟩ := staysCancelled h c hc stillborn
  have hn : n < h.state.calls.length := (List.getElem?_eq_some_iff.1 get).1
  refine ⟨fun ho => ⟨?_, ?_⟩, ?_, fun result hd => Call.isQuiet_iff legal hsees hd⟩
  · rintro rfl
    obtain ⟨stats, c', turn, ended⟩ := Call.exists_batch? legal ho
    refine ⟨_, c', next_eq_some_iff.2 (.batch get (hseen.symm ▸ turn)), ?_, ended⟩
    exact List.getElem?_set_self hn
  · rintro rfl l
    obtain ⟨stats, c', turn, ended⟩ := Call.exists_look? legal ho l
    refine ⟨_, c', next_eq_some_iff.2 (.look get (hseen.symm ▸ turn)), ?_, ended⟩
    exact List.getElem?_set_self hn
  · rintro rfl
    exact Call.last_of_cpu legal

namespace Trial

/-- a search is begun under a token that has been cancelled, its solver cannot be started, and it is
looked at -/
def early (solverFirst : Bool) : History .external 1 :=
  (((Trace.start.go (.act .root) rfl).go (.act (.cancel [0])) rfl).go
    (.call Backend.Trial.request [0]) rfl).go
      (.look 0 ⟨solverFirst, some (.notStarted "not found")⟩) (by cases solverFirst <;> rfl)

def search (solverFirst : Bool) (result : Except Error Candidate) (e : Solver.Ending) : Call :=
  { request := Backend.Trial.request, job := ⟨0, [0], [1, 0]⟩, stillborn := true,
    stage := .decided result, last := some (⟨solverFirst, some (.notStarted "not found")⟩, e) }

theorem calls_early_solver : (early true).state.calls =
    [search true (.error (.backend "external" "failed to spawn solver: not found"))
      (.solver (.notStarted "not found"))] := rfl

end Trial

theorem stillborn_exactly_token_first :
    (Trial.early false).state.calls[0]? = some (Trial.search false (.ok .none) .cancelled) ∧
      (Trial.search false (.ok .none) .cancelled).IsQuiet (.ok .none) :=
  ⟨rfl, ((stillborn_exactly (Trial.early false) 0 _ rfl rfl).2.2 _ rfl).2 (by
    rintro l e ⟨⟩ ⟨⟩)⟩

/-- a search under a cancelled token can come back with an error -/
theorem not_always_quiet :
    ¬ ∀ (type : BackendType) (devices : Nat) (h : History type devices), ∀ c ∈ h.state.calls,
      c.stillborn = true → ∀ result, c.stage = .decided result → c.IsQuiet result := by
  intro h
  have hc : Trial.search true (.error (.backend "external" "failed to spawn solver: not found"))
      (.solver (.notStarted "not found")) ∈ (Trial.early true).state.calls := by
    rw [Trial.calls_early_solver]
    exact List.mem_cons_self
  obtain ⟨⟨_, he, -⟩, -⟩ := h .external 1 (Trial.early true) _ hc rfl _ rfl
  cases he

end History

end Service

end HeaderMiner
