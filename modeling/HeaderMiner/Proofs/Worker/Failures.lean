import HeaderMiner.Proofs.Worker.SolverAnswers
/-!
# Why searches fail

A search fails because its backend refuses it, because its device is busy, or because its solver has
failed (`Backend.error_of_answers`); so one that passes the checks of its backend is not refused, and
one that does not pass them always is.
-/

namespace HeaderMiner

/-- whether an error says that a backend does not do such searches: it does not have the device, or
it cannot search with the parameters -/
inductive Error.IsRefusal : Error → Prop
  | noDevice (device : Nat) : IsRefusal (.noDevice device)
  | unsupported : IsRefusal (.backend "cpu" "cycle parameters are not supported")

namespace Solver

/-- the errors of solvers -/
inductive IsFailure : Error → Prop
  | failure (why : String) : IsFailure (Solver.failure why)
  | timeout : IsFailure (.timeout "external solver")

theorem isFailure_of_output {run : Run} {e : Error} (h : run.output = .error e) : IsFailure e := by
  unfold Run.output at h
  split at h
  · cases h
    exact .failure _
  · cases h
    exact .failure _
  · cases h
  · cases h
    exact .failure _
  · cases h
    exact .failure _
  · cases h
    exact .timeout

theorem isFailure_of_parseOutput {out : List UInt8} {e : Error} (h : parseOutput out = .error e) :
    IsFailure e := by
  obtain ⟨why, rfl⟩ := exists_failure_of_parseOutput h
  exact .failure why

theorem isFailure_of_conclude {r : Request} {ending : Ending} {e : Error}
    (h : (conclude r ending).1 = .error e) : IsFailure e := by
  cases ending with
  | cancelled => cases h
  | solver run =>
    unfold conclude at h
    dsimp only at h
    split at h
    · next he =>
      cases h
      cases ho : run.output with
      | error e =>
        rw [ho] at he
        cases he
        exact isFailure_of_output ho
      | ok out =>
        rw [ho] at he
        exact isFailure_of_parseOutput he
    · cases h

theorem IsFailure.not_isRefusal {e : Error} (h : IsFailure e) : ¬ e.IsRefusal := by
  intro hr
  cases hr with
  | noDevice device => exact nomatch h
  | unsupported =>
    -- both are errors of a backend, but of backends with other names
    generalize he : Error.backend "cpu" "cycle parameters are not supported" = e at h
    cases h with
    | failure why => exact absurd (Error.backend.inj he).1 (by decide)
    | timeout => cases he

end Solver

theorem Registry.eq_of_start {registry : Registry} {ts : Tokens} {device : Nat} {parent : Token}
    {e : Error} (h : registry.start ts device parent = .error e) : e = .jobInProgress device := by
  unfold start at h
  split at h
  · cases h
    rfl
  · cases h

namespace Backend

variable {b : Backend} {r : Request} {e : Error}

theorem isFailure_of_conclude {i : Invocation} {course : Course}
    (h : (b.conclude i course).1 = .error e) : Solver.IsFailure e := by
  unfold conclude at h
  split at h
  · cases h
  · cases h
  · exact Solver.isFailure_of_conclude h

theorem error_of_begin {ts : Tokens} {parent : Token} (h : b.begin ts r parent = .error e) :
    b.check r = .error e ∨ e = .jobInProgress r.device := by
  unfold begin at h
  cases hc : b.check r with
  | error e' =>
    rw [hc] at h
    cases h
    exact .inl rfl
  | ok u =>
    cases hs : b.registry.start ts r.device parent with
    | ok started =>
      rw [hc, hs] at h
      cases h
    | error e' =>
      rw [hc, hs] at h
      cases h
      exact .inr (Registry.eq_of_start hs)

/-- a search fails because it is refused, because its device is busy, or because its solver fails -/
theorem error_of_answers (h : b.Answers r (.error e)) :
    b.check r = .error e ∨ e = .jobInProgress r.device ∨ Solver.IsFailure e := by
  obtain ⟨registry, stats, ts, parent, course, h⟩ := h
  unfold mine at h
  split at h
  · next e' he =>
    cases h
    rcases error_of_begin he with hc | rfl
    · exact .inl hc
    · exact .inr (.inl rfl)
  · exact .inr (.inr (isFailure_of_conclude h))

theorem not_isRefusal_of_check (hc : b.check r = .ok ()) (h : b.Answers r (.error e)) :
    ¬ e.IsRefusal := by
  rcases error_of_answers h with he | rfl | hf
  · rw [hc] at he
    cases he
  · exact nofun
  · exact hf.not_isRefusal

theorem eq_of_answers_of_check {result : Except Error Candidate} (hc : b.check r = .error e)
    (h : b.Answers r result) : result = .error e := by
  obtain ⟨registry, stats, ts, parent, course, rfl⟩ := h
  have hb : ({ b with registry, stats } : Backend).begin ts r parent = .error e :=
    begin_of_check hc
  unfold mine
  rw [hb]

end Backend

end HeaderMiner
