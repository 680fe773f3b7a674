import Mathlib.Data.List.Forall2
import HeaderMiner.Worker.Session
/-!
# What the searches of a round come back with

A search passes the checks of its backend, gets its device and goes its course, or it is refused
(`Backend.begin_eq_ok_iff`).  What it comes back with depends on nothing else that the backend is
doing.  `Backend.Answers` leaves all of that open: the jobs that are running, the tokens, and how the
search goes, so also when it is cancelled.

The searches of a round in a session are begun one after the other before the first of them ends.
Each of them comes back with something that its backend may answer (`Session.answers_round`), so
what is shown for any answers holds of such a round.
-/

namespace HeaderMiner

namespace Backend

variable {b b' : Backend} {ts us : Tokens} {r : Request} {parent : Token} {i : Invocation}

theorem check_eq_ok_iff : b.check r = .ok () ↔ r.device < b.devices ∧ b.accepts r.params = true := by
  unfold check
  by_cases hd : b.devices ≤ r.device
  · rw [if_pos hd]
    exact iff_of_false (fun h => by cases h) fun h => Nat.not_lt.2 hd h.1
  · rw [if_neg hd]
    cases ha : b.accepts r.params with
    | true => exact iff_of_true rfl ⟨Nat.not_le.1 hd, rfl⟩
    | false => exact iff_of_false (fun h => by cases h) fun h => by cases h.2

theorem check_of_le (h : b.devices ≤ r.device) : b.check r = .error (.noDevice r.device) := by
  unfold check
  rw [if_pos h]
  rfl

theorem check_of_not_accepts (hd : r.device < b.devices) (ha : b.accepts r.params = false) :
    b.check r = .error (.backend "cpu" "cycle parameters are not supported") := by
  unfold check
  rw [if_neg (Nat.not_le.2 hd), ha]
  rfl

theorem begin_of_check {e : Error} (h : b.check r = .error e) :
    b.begin ts r parent = .error e := by
  unfold begin
  rw [h]
  rfl

theorem begin_eq_ok_iff :
    b.begin ts r parent = .ok (i, b', us) ↔ b.check r = .ok () ∧
      ∃ token registry, b.registry.start ts r.device parent = .ok (token, registry, us) ∧
        i = ⟨r, token⟩ ∧ b' = { b with registry } := by
  unfold begin
  cases hc : b.check r with
  | error e => exact iff_of_false (fun h => by cases h) fun h => by cases h.1
  | ok u =>
    cases hs : b.registry.start ts r.device parent with
    | error e =>
      refine iff_of_false (fun h => by cases h) ?_
      rintro ⟨_, token, registry, h, _⟩
      cases h
    | ok p =>
      obtain ⟨token, registry, vs⟩ := p
      constructor
      · intro h
        cases h
        exact ⟨rfl, token, registry, rfl, rfl, rfl⟩
      · rintro ⟨_, token, registry, h, rfl, rfl⟩
        cases h
        rfl

theorem conclude_congr (h : b'.type = b.type) (i : Invocation) (c : Course) :
    b'.conclude i c = b.conclude i c := by
  unfold conclude
  rw [h]

/-- a search that comes back with a candidate has begun, and this is how its course ends -/
theorem conclude_of_mine {course : Invocation → Tokens → Course} {c : Candidate}
    (h : (b.mine ts r parent course).1 = .ok c) :
    b.check r = .ok () ∧
      ∃ token us, (b.conclude ⟨r, token⟩ (course ⟨r, token⟩ us)).1 = .ok c := by
  unfold mine at h
  split at h
  · cases h
  · next i b' us hb =>
    obtain ⟨hc, token, registry, _, rfl, rfl⟩ := begin_eq_ok_iff.1 hb
    exact ⟨hc, token, us, h⟩

/-- what a search on a backend may come back with, whatever else the backend is doing, and however
and whenever the search goes -/
def Answers (b : Backend) (r : Request) (result : Except Error Candidate) : Prop :=
  ∃ (registry : Registry) (stats : Stats) (ts : Tokens) (parent : Token)
    (course : Invocation → Tokens → Course),
    ({ b with registry, stats }.mine ts r parent course).1 = result

/-- what the begin of a search on a backend may come to, whatever else the backend is doing -/
def Begins (b : Backend) (r : Request) : Except Error Invocation → Prop
  | .error e => ∃ registry stats ts parent,
      ({ b with registry, stats } : Backend).begin ts r parent = .error e
  | .ok i => ∃ registry stats ts parent b' us,
      ({ b with registry, stats } : Backend).begin ts r parent = .ok (i, b', us)

theorem Begins.answers_error {e : Error} (h : b.Begins r (.error e)) : b.Answers r (.error e) := by
  obtain ⟨registry, stats, ts, parent, h⟩ := h
  refine ⟨registry, stats, ts, parent, fun _ _ => {}, ?_⟩
  unfold mine
  rw [h]

theorem Begins.answers_conclude (h : b.Begins r (.ok i)) (c : Course) :
    b.Answers r (b.conclude i c).1 := by
  obtain ⟨registry, stats, ts, parent, b', us, h⟩ := h
  refine ⟨registry, stats, ts, parent, fun _ _ => c, ?_⟩
  obtain ⟨_, token, registry', _, _, hb⟩ := begin_eq_ok_iff.1 h
  have ht : b'.type = b.type := by rw [hb]
  unfold mine
  rw [h]
  show (b'.conclude i c).1 = (b.conclude i c).1
  rw [conclude_congr ht]

theorem exists_answers {requests : List Request} {results : List (Except Error Candidate)}
    (h : List.Forall₂ b.Answers requests results) {k : Nat} {result : Except Error Candidate}
    (hk : results[k]? = some result) : ∃ r, requests[k]? = some r ∧ b.Answers r result := by
  obtain ⟨hresult, rfl⟩ := List.getElem?_eq_some_iff.1 hk
  have hrequest : k < requests.length := h.length_eq ▸ hresult
  exact ⟨requests[k], List.getElem?_eq_getElem hrequest, h.get hrequest hresult⟩

end Backend

/-! ## rounds of a session -/

namespace Session

variable {s t : Session} {b : Backend}

/-- doing one thing after the other, what each thing keeps is kept, and what each of them comes back
with is gathered -/
theorem forall₂_each {α β : Type} {P : Session → Prop} {R : α → β → Prop}
    {act : Session → α → β × Session} (hact : ∀ s a, P s → R a (act s a).1 ∧ P (act s a).2)
    (hs : P s) (as : List α) :
    List.Forall₂ R as (s.each act as).1 ∧ P (s.each act as).2 := by
  induction as generalizing s with
  | nil => exact ⟨.nil, hs⟩
  | cons a as ih =>
    obtain ⟨hb, ht⟩ := hact s a hs
    obtain ⟨hbs, hu⟩ := ih ht
    exact ⟨.cons hb hbs, hu⟩

/-- whether a session is with a backend, whatever that is doing -/
def IsWith (b : Backend) (s : Session) : Prop :=
  ∃ registry stats, s.backend = { b with registry, stats }

theorem beginSearch_spec (h : IsWith b s) (r : Request) :
    b.Begins r (s.beginSearch r).1 ∧ IsWith b (s.beginSearch r).2 := by
  obtain ⟨registry, stats, hb⟩ := h
  unfold beginSearch
  dsimp only
  split
  · next e he =>
    rw [hb] at he
    exact ⟨⟨registry, stats, _, _, he⟩, registry, stats, hb⟩
  · next i b' us he =>
    rw [hb] at he
    obtain ⟨_, token, registry', _, _, hb'⟩ := Backend.begin_eq_ok_iff.1 he
    exact ⟨⟨registry, stats, _, _, b', us, he⟩, registry', stats, hb'⟩

theorem endSearch_spec (h : IsWith b s) (run : Request → Solver.Run)
    (begun : Except Error Invocation) :
    (∀ r, b.Begins r begun → b.Answers r (s.endSearch run begun).1) ∧
      IsWith b (s.endSearch run begun).2 := by
  cases begun with
  | error e => exact ⟨fun r hr => hr.answers_error, h⟩
  | ok i =>
    obtain ⟨registry, stats, hb⟩ := h
    have ht : s.backend.type = b.type := by rw [hb]
    constructor
    · intro r hr
      show b.Answers r (s.backend.conclude i (s.course run i)).1
      rw [Backend.conclude_congr ht]
      exact hr.answers_conclude _
    · refine ⟨s.backend.registry.release i.request.device,
        s.backend.stats.add (s.backend.conclude i (s.course run i)).2, ?_⟩
      show (s.backend.finish i (s.course run i)).2 = _
      unfold Backend.finish
      dsimp only
      rw [hb]

theorem answers_of_begins {requests : List Request} {begun : List (Except Error Invocation)}
    {results : List (Except Error Candidate)} (hb : List.Forall₂ b.Begins requests begun)
    (he : List.Forall₂ (fun begun result => ∀ r, b.Begins r begun → b.Answers r result)
      begun results) : List.Forall₂ b.Answers requests results := by
  induction hb generalizing results with
  | nil =>
    cases he
    exact .nil
  | cons hr _ ih =>
    cases he with
    | cons hx hxs => exact .cons (hx _ hr) (ih hxs)

theorem answers_round (s : Session) (run : Request → Solver.Run) (requests : List Request) :
    List.Forall₂ s.backend.Answers requests (s.round run requests).1 := by
  have hs : IsWith s.backend s := ⟨s.backend.registry, s.backend.stats, rfl⟩
  obtain ⟨hbegun, ht⟩ := forall₂_each (P := IsWith s.backend) (R := s.backend.Begins)
    (fun _ r h => beginSearch_spec h r) hs requests
  obtain ⟨hended, _⟩ := forall₂_each (P := IsWith s.backend)
    (R := fun begun result => ∀ r, s.backend.Begins r begun → s.backend.Answers r result)
    (fun _ begun h => endSearch_spec h run begun) ht (s.each beginSearch requests).1
  exact answers_of_begins hbegun hended

end Session

end HeaderMiner
