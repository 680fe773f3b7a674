import HeaderMiner.Proofs.Worker.Matches
import HeaderMiner.Proofs.Worker.Partition
/-!
# What a round asks for, and what it comes to

A round asks for one search of its own header on the pinned device, or for one search on each device
in their order (`Plan.Issues`).  What it comes to depends on the results of these searches by index
alone, and a failure comes before every match (`Settles`): the first failure, wherever matches are,
else the first match as it is, else nothing.  There is exactly one such result (`settle_eq_iff`).
-/

namespace HeaderMiner.Round

namespace Plan

variable {p : Plan} {h : Header} {target : Target} {tails : Nat → Octets 12} {r : Request}

/-- what a round on a header asks its backend for -/
structure Issues (p : Plan) (h : Header) (target : Target) (requests : List Request) : Prop where
  pinned : ∀ d, p.device = some d → requests = [⟨h, target, p.params.forWorker 0, d⟩]
  devices : p.device = none → requests.map (·.device) = List.range p.devices
  worker : ∀ i r, requests[i]? = some r → r.params = p.params.forWorker i ∧ r.target = target
  outside : ∀ r ∈ requests, ∀ j, (j < 140 ∨ 152 ≤ j) → r.header.toBytes[j]? = h.toBytes[j]?
  cycle : p.kind = .cycle → ∀ r ∈ requests, r.header = h

theorem header_of_not_randomizes (hp : p.randomizes = false) (tail : Octets 12) (i : Nat) :
    (p.request h target tail i).header = h := by
  show (if p.randomizes then _ else h) = h
  rw [hp]
  rfl

theorem issues_requests (p : Plan) (h : Header) (target : Target) (tails : Nat → Octets 12) :
    p.Issues h target (p.requests h target tails) where
  pinned := by
    intro d hd
    have hp : p.randomizes = false := by simp [randomizes, hd]
    have hh : (p.request h target (tails 0) 0).header = h := header_of_not_randomizes hp ..
    rw [requests_of_pinned hd, ← hh]
    simp [request, hp, hd]
  devices := by
    intro hd
    have hw : p.workers = p.devices := by simp only [workers, hd]
    rw [requests, hw, List.map_map]
    refine (List.map_congr_left fun i _ => ?_).trans (List.map_id _)
    simp [request, hd]
  worker := by
    intro i r hr
    rw [eq_request hr]
    exact ⟨rfl, rfl⟩
  outside := by
    intro r hr j hj
    obtain ⟨i, _, rfl⟩ := mem_requests.1 hr
    exact getElem?_request (tails i) i hj
  cycle := by
    intro hk r hr
    have hp : p.randomizes = false := by simp [randomizes, hk]
    obtain ⟨i, _, rfl⟩ := mem_requests.1 hr
    exact header_of_not_randomizes hp (tails i) i

end Plan

/-! ## the result -/

variable {results : List (Except Error Candidate)} {r : Except Error Candidate} {c : Candidate}
  {e : Error}

def IsSound (results : List (Except Error Candidate)) : Prop := ∀ r ∈ results, ∃ c, r = .ok c

/-- what a round comes to whose searches have come back with some results -/
inductive Settles (results : List (Except Error Candidate)) : Except Error Candidate → Prop where
  | failed {i : Nat} {e : Error} (failure : results[i]? = some (.error e))
      (before : ∀ k < i, ∃ c, results[k]? = some (.ok c)) : Settles results (.error e)
  | matched {i : Nat} {c : Candidate} (sound : IsSound results) (first : IsFirst results i c)
      (isMatch : c.isMatch = true) : Settles results (.ok c)
  | missed (sound : IsSound results) (none : ∀ c, .ok c ∈ results → c.isMatch = false) :
      Settles results (.ok .none)

theorem firstFailure_eq_none_iff : firstFailure results = none ↔ IsSound results := by
  unfold IsSound
  induction results with
  | nil => simp [firstFailure]
  | cons result results ih => cases result <;> simp [firstFailure, ih]

theorem firstFailure_eq_some_iff :
    firstFailure results = some e ↔
      ∃ i : Nat, results[i]? = some (.error e) ∧ ∀ k < i, ∃ c, results[k]? = some (.ok c) := by
  induction results with
  | nil => simp [firstFailure]
  | cons result results ih =>
    cases result with
    | error e' =>
      show some e' = some e ↔ _
      constructor
      · intro he
        obtain rfl := Option.some.inj he
        exact ⟨0, rfl, fun k hk => absurd hk (Nat.not_lt_zero k)⟩
      · intro hi
        obtain ⟨i, he, before⟩ := hi
        cases i with
        | zero => simpa using he
        | succ i =>
          obtain ⟨c, hc⟩ := before 0 (Nat.succ_pos i)
          cases hc
    | ok c =>
      show firstFailure results = some e ↔ _
      rw [ih]
      constructor
      · intro hi
        obtain ⟨i, he, before⟩ := hi
        refine ⟨i + 1, he, fun k hk => ?_⟩
        cases k with
        | zero => exact ⟨c, rfl⟩
        | succ k => exact before k (Nat.lt_of_succ_lt_succ hk)
      · intro hi
        obtain ⟨i, he, before⟩ := hi
        cases i with
        | zero => cases he
        | succ i => exact ⟨i, he, fun k hk => before (k + 1) (Nat.succ_lt_succ hk)⟩

theorem firstMatch_of_isFirst {i : Nat} (h : IsFirst results i c) (hc : c.isMatch = true) :
    firstMatch results = some c := by
  induction results generalizing i with
  | nil => cases h.1
  | cons result results ih =>
    obtain ⟨hi, before⟩ := h
    cases i with
    | zero =>
      obtain rfl : result = .ok c := Option.some.inj hi
      rw [firstMatch, if_pos hc]
    | succ i =>
      obtain ⟨d, hd, hm⟩ := before 0 (Nat.succ_pos i)
      obtain rfl : result = .ok d := Option.some.inj hd
      rw [firstMatch, hm]
      exact ih ⟨hi, fun j hj => before (j + 1) (Nat.succ_lt_succ hj)⟩

theorem firstMatch_eq_none_iff :
    firstMatch results = none ↔ ∀ c, .ok c ∈ results → c.isMatch = false := by
  induction results with
  | nil => simp [firstMatch]
  | cons result results ih =>
    cases result with
    | error e => simp [firstMatch, ih]
    | ok d =>
      by_cases hd : d.isMatch = true
      · simp [firstMatch, hd]
      · simp [firstMatch, hd, ih]

theorem isMatch_of_firstMatch (h : firstMatch results = some c) : c.isMatch = true := by
  induction results with
  | nil => cases h
  | cons result results ih =>
    cases result with
    | error e => exact ih h
    | ok d =>
      rw [firstMatch] at h
      split at h
      · next hd =>
        cases h
        exact hd
      · exact ih h

theorem settle_eq_iff : settle results = r ↔ Settles results r := by
  constructor
  · intro h
    unfold settle at h
    split at h
    · next e he =>
      obtain ⟨i, hi, before⟩ := firstFailure_eq_some_iff.1 he
      rw [← h]
      exact .failed hi before
    · next hn =>
      have sound := firstFailure_eq_none_iff.1 hn
      rw [← h]
      cases hm : firstMatch results with
      | none => exact .missed sound (firstMatch_eq_none_iff.1 hm)
      | some c =>
        obtain ⟨i, hi⟩ := exists_isFirst_of_firstMatch hn hm
        exact .matched sound hi (isMatch_of_firstMatch hm)
  · intro h
    unfold settle
    cases h with
    | failed failure before =>
      rw [firstFailure_eq_some_iff.2 ⟨_, failure, before⟩]
    | matched sound first isMatch =>
      rw [firstFailure_eq_none_iff.2 sound, firstMatch_of_isFirst first isMatch]
      rfl
    | missed sound none =>
      rw [firstFailure_eq_none_iff.2 sound, firstMatch_eq_none_iff.2 none]
      rfl

end HeaderMiner.Round
