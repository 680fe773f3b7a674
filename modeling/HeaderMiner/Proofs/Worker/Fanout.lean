import HeaderMiner.Worker.Round
/-!
# The searches of a round and its result

A round on a pinned device is one search, any other one has a search on each device; the headers
that are searched differ from the round's in the extra nonce at most, and the parameters are all for
one kind of search.

The result depends on those of the searches by index: a match is that of the first search that has
one, and none in front of it has failed (`Round.exists_isFirst`); a failure is that of one of the
searches (`Round.mem_of_settle_error`).
-/

namespace HeaderMiner

theorem Params.kind_forWorker (p : Params) (index : Nat) : (p.forWorker index).kind = p.kind := by
  cases p <;> rfl

namespace Round

namespace Plan

variable {p : Plan} {h : Header} {target : Target} {tails : Nat → Octets 12} {r : Request}

theorem eq_request {i : Nat} (hr : (p.requests h target tails)[i]? = some r) :
    r = p.request h target (tails i) i := by
  unfold requests at hr
  rw [List.getElem?_map, Option.map_eq_some_iff] at hr
  obtain ⟨k, hk, rfl⟩ := hr
  obtain ⟨_, rfl⟩ := List.getElem?_eq_some_iff.1 hk
  rw [List.getElem_range]

theorem header_request (tail : Octets 12) (i : Nat) :
    (p.request h target tail i).header =
      { h with extraNonce := (p.request h target tail i).header.extraNonce } := by
  unfold request
  dsimp only
  split <;> rfl

theorem kind_params (hr : r ∈ p.requests h target tails) : r.params.kind = p.params.kind := by
  obtain ⟨i, -, rfl⟩ := List.mem_map.1 hr
  exact p.params.kind_forWorker i

theorem requests_of_pinned {d : Nat} (hd : p.device = some d) :
    p.requests h target tails = [p.request h target (tails 0) 0] := by
  have hw : p.workers = 1 := by simp only [workers, hd]
  rw [requests, hw]
  rfl

theorem device_of_pinned {d : Nat} (hd : p.device = some d) (hr : r ∈ p.requests h target tails) :
    r.device = d := by
  obtain ⟨i, -, rfl⟩ := List.mem_map.1 hr
  simp only [request, hd, Option.getD]

theorem device_lt_of_open (hd : p.device = none) (hr : r ∈ p.requests h target tails) :
    r.device < p.devices := by
  obtain ⟨i, hi, rfl⟩ := List.mem_map.1 hr
  have hw : p.workers = p.devices := by simp only [workers, hd]
  have hdev : (p.request h target (tails i) i).device = i := by simp only [request, hd, Option.getD]
  rw [List.mem_range, hw] at hi
  rwa [hdev]

end Plan

/-! ## results -/

variable {results : List (Except Error Candidate)} {c : Candidate} {e : Error}

/-- whether a candidate is the match of search `i`, and no search before it has failed or matched -/
def IsFirst (results : List (Except Error Candidate)) (i : Nat) (c : Candidate) : Prop :=
  results[i]? = some (.ok c) ∧ ∀ j < i, ∃ d, results[j]? = some (.ok d) ∧ d.isMatch = false

theorem IsFirst.cons {i : Nat} {d : Candidate} (h : IsFirst results i c) (hd : d.isMatch = false) :
    IsFirst (.ok d :: results) (i + 1) c := by
  refine ⟨h.1, fun j hj => ?_⟩
  cases j with
  | zero => exact ⟨d, rfl, hd⟩
  | succ j => exact h.2 j (Nat.lt_of_succ_lt_succ hj)

theorem exists_isFirst_of_firstMatch (hf : firstFailure results = none)
    (hm : firstMatch results = some c) : ∃ i, IsFirst results i c := by
  induction results with
  | nil => cases hm
  | cons result results ih =>
    cases result with
    | error e => cases hf
    | ok d =>
      rw [firstMatch] at hm
      split at hm
      · cases hm
        exact ⟨0, rfl, fun j hj => absurd hj (Nat.not_lt_zero j)⟩
      · next hd =>
        obtain ⟨i, hi⟩ := ih hf hm
        exact ⟨i + 1, hi.cons (Bool.eq_false_iff.2 hd)⟩

theorem exists_isFirst (h : settle results = .ok c) (hc : c.isMatch = true) :
    ∃ i, IsFirst results i c := by
  unfold settle at h
  split at h
  · cases h
  · next hf =>
    cases hm : firstMatch results with
    | none =>
      rw [hm] at h
      cases h
      cases hc
    | some d =>
      rw [hm] at h
      cases h
      exact exists_isFirst_of_firstMatch hf hm

theorem mem_of_settle (h : settle results = .ok c) (hc : c.isMatch = true) : .ok c ∈ results := by
  obtain ⟨i, hi⟩ := exists_isFirst h hc
  exact List.mem_of_getElem? hi.1

theorem mem_of_firstFailure (h : firstFailure results = some e) : .error e ∈ results := by
  induction results with
  | nil => cases h
  | cons result results ih =>
    cases result with
    | ok c => exact List.mem_cons_of_mem _ (ih h)
    | error e' =>
      cases h
      exact List.mem_cons_self

theorem mem_of_settle_error (h : settle results = .error e) : .error e ∈ results := by
  unfold settle at h
  split at h
  · next he =>
    cases h
    exact mem_of_firstFailure he
  · cases h

end Round

end HeaderMiner
