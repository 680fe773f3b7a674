import Mathlib.Algebra.BigOperators.Group.List.Basic
import Mathlib.Algebra.GroupWithZero.Nat
import HeaderMiner.Proofs.Worker.Turns
import HeaderMiner.Proofs.Worker.Usage
/-!
# What one move does to a backend in use

Every move of a service is at most one act of its registry's callers, so what those cannot break stays
as it is (`Registry.Usage.Regular`).  Beyond this, the jobs that have been begun are those of the
searches that have begun, a search holds its job until it is over, and the totals are the sums of what
the searches have added (`Service.Regular`).
-/

namespace HeaderMiner.Service

open Registry (Act Job Usage)

variable {s t : Service} {m : Move} {n : Nat} {r : Request} {parent : Token} {e : Error}
  {c : Call}

/-! ## what a move can come to -/

/-- whether a search sees itself cancelled -/
def seen (s : Service) (c : Call) : Bool := s.usage.tokens.isCancelled c.job.token

def took (s : Service) (n : Nat) (stats : Stats) (c : Call) : Service :=
  { s with stats := s.stats.add stats, calls := s.calls.set n c }

def begun (s : Service) (r : Request) (parent : Token) (job : Job) (usage : Usage) : Service :=
  { s with
    usage, calls := s.calls ++ [.start s.type r job (s.usage.tokens.isCancelled parent)] }

inductive Step (s : Service) : Move → Service → Prop
  | act {a : Act} {x : Registry.Answer} {usage : Usage} (isOpen : s.usage.isOpen a = true)
      (step : s.usage.Step a x usage) : Step s (.act a) { s with usage }
  | refuse {r : Request} {parent : Token} {e : Error}
      (refused : s.call? r parent = some (.error e)) : Step s (.call r parent) s
  | call {r : Request} {parent : Token} {job : Job} {usage : Usage}
      (check : s.backend.check r = .ok ()) (own : parent ∈ s.usage.own)
      (step : s.usage.Step (.begin r.device parent) (.begun job) usage) :
      Step s (.call r parent) (s.begun r parent job usage)
  | batch {n : Nat} {c c' : Call} {stats : Stats} (get : s.calls[n]? = some c)
      (turn : c.batch? (s.seen c) = some (stats, c')) : Step s (.batch n) (s.took n stats c')
  | look {n : Nat} {l : Solver.Look} {c c' : Call} {stats : Stats} (get : s.calls[n]? = some c)
      (turn : c.look? l (s.seen c) = some (stats, c')) : Step s (.look n l) (s.took n stats c')
  | leave {n : Nat} {c : Call} {x : Registry.Answer} {usage : Usage} (get : s.calls[n]? = some c)
      (ended : c.IsOver) (step : s.usage.Step (.drop c.job) x usage) :
      Step s (.leave n) { s with usage }

theorem accepts_iff :
    s.backend.accepts r.params = true ↔ (s.type = .cpu → r.params.kind = .nonce) := by
  unfold Backend.accepts
  show (s.type == .external || _) = true ↔ _
  cases s.type <;> simp

theorem call?_eq_ok_iff :
    s.call? r parent = some (.ok t) ↔ s.backend.check r = .ok () ∧ parent ∈ s.usage.own ∧
      ∃ job usage, s.usage.Step (.begin r.device parent) (.begun job) usage ∧
        t = s.begun r parent job usage := by
  unfold call?
  simp only [← Usage.act_eq_some_iff]
  cases s.backend.check r with
  | error e => exact iff_of_false nofun nofun
  | ok u =>
    dsimp only
    rw [Option.ite_none_right_eq_some, and_iff_right rfl]
    refine and_congr Usage.owns_iff ?_
    split
    · next job usage h =>
      rw [h]
      constructor
      · rintro ⟨⟩
        exact ⟨job, usage, rfl, rfl⟩
      · rintro ⟨job', usage', h', rfl⟩
        cases h'
        rfl
    · next e usage h =>
      rw [h]
      exact iff_of_false nofun fun ⟨_, _, h', _⟩ => nomatch h'
    · -- no other answer comes from a begin
      next hno _ =>
      refine iff_of_false nofun ?_
      rintro ⟨job, usage, h, -⟩
      exact hno job usage h

theorem turn?_eq_some_iff {f : Call → Bool → Option (Stats × Call)} :
    s.turn? n f = some t ↔ ∃ c stats c', s.calls[n]? = some c ∧ f c (s.seen c) = some (stats, c') ∧
      s.took n stats c' = t := by
  unfold turn?
  simp only [Option.bind_eq_bind, Option.bind_eq_some_iff, Prod.exists]
  constructor
  · rintro ⟨c, hc, stats, c', hf, ht⟩
    exact ⟨c, stats, c', hc, hf, Option.some.inj ht⟩
  · rintro ⟨c, stats, c', hc, hf, rfl⟩
    exact ⟨c, hc, stats, c', hf, rfl⟩

theorem leave?_eq_some_iff :
    s.leave? n = some t ↔ ∃ c x usage, s.calls[n]? = some c ∧ c.IsOver ∧
      s.usage.Step (.drop c.job) x usage ∧ { s with usage } = t := by
  unfold leave?
  simp only [Option.bind_eq_bind, Option.bind_eq_some_iff, ← Usage.act_eq_some_iff]
  constructor
  · rintro ⟨c, hc, ht⟩
    split at ht
    · next result hs =>
      obtain ⟨⟨x, usage⟩, hx, ht⟩ := Option.map_eq_some_iff.1 ht
      exact ⟨c, x, usage, hc, ⟨result, hs⟩, hx, ht⟩
    · cases ht
  · rintro ⟨c, x, usage, hc, ⟨result, hs⟩, hx, rfl⟩
    refine ⟨c, hc, ?_⟩
    rw [hs, hx]
    rfl

theorem next_eq_some_iff : s.next m = some t ↔ Step s m t := by
  constructor
  · intro h
    cases m with
    | act a =>
      dsimp only [next] at h
      split at h
      · next ho =>
        obtain ⟨⟨x, usage⟩, hx, rfl⟩ := Option.map_eq_some_iff.1 h
        exact .act ho (Usage.act_eq_some_iff.1 hx)
      · cases h
    | call r parent =>
      obtain ⟨result, hr, ht⟩ := Option.map_eq_some_iff.1 h
      cases result with
      | error e =>
        subst ht
        exact .refuse hr
      | ok t' =>
        subst ht
        obtain ⟨hc, own, job, usage, hs, rfl⟩ := call?_eq_ok_iff.1 hr
        exact .call hc own hs
    | batch n =>
      obtain ⟨c, stats, c', hc, hf, rfl⟩ := turn?_eq_some_iff.1 h
      exact .batch hc hf
    | look n l =>
      obtain ⟨c, stats, c', hc, hf, rfl⟩ := turn?_eq_some_iff.1 h
      exact .look hc hf
    | leave n =>
      obtain ⟨c, x, usage, hc, ho, hs, rfl⟩ := leave?_eq_some_iff.1 h
      exact .leave hc ho hs
  · intro h
    cases h with
    | act isOpen step =>
      dsimp only [next]
      rw [if_pos isOpen, Usage.act_eq_some_iff.2 step]
      rfl
    | refuse refused =>
      dsimp only [next]
      rw [refused]
      rfl
    | call check own step =>
      dsimp only [next]
      rw [call?_eq_ok_iff.2 ⟨check, own, _, _, step, rfl⟩]
      rfl
    | batch get turn => exact turn?_eq_some_iff.2 ⟨_, _, _, get, turn, rfl⟩
    | look get turn => exact turn?_eq_some_iff.2 ⟨_, _, _, get, turn, rfl⟩
    | leave get ended step => exact leave?_eq_some_iff.2 ⟨_, _, _, get, ended, step, rfl⟩

/-! ## the searches and the totals -/

/-- replacing an entry by one that counts more adds to the sum what it counts more -/
theorem sum_map_set {calls : List Call} {f : Call → Nat} {c' : Call} {k : Nat}
    (get : calls[n]? = some c) (h : f c' = f c + k) :
    ((calls.set n c').map f).sum = (calls.map f).sum + k := by
  induction calls generalizing n with
  | nil => cases get
  | cons d calls ih =>
    cases n with
    | zero =>
      obtain rfl : d = c := Option.some.inj get
      simp only [List.set_cons_zero, List.map_cons, List.sum_cons, h]
      omega
    | succ n =>
      have hi := ih (n := n) get
      simp only [List.set_cons_succ, List.map_cons, List.sum_cons, hi]
      omega

/-- what holds of each search of a service -/
structure Keeps (s : Service) (c : Call) : Prop where
  legal : c.Legal s.type
  device : c.job.device = c.request.device
  inside : c.request.device < s.devices
  holds : ¬ c.IsOver → c.job ∈ s.usage.held

/-- what holds of a service, whatever its callers do -/
structure Regular (s : Service) : Prop where
  usage : s.usage.Regular
  jobs : s.calls.map Call.job = s.usage.begun
  keeps : ∀ c ∈ s.calls, s.Keeps c
  hashes : s.stats.hashes = (s.calls.map fun c => c.added.hashes).sum
  found : s.stats.found = (s.calls.map fun c => c.added.found).sum

theorem regular_new (type : BackendType) (devices : Nat) : Regular { type, devices } where
  usage := Usage.regular_empty
  jobs := rfl
  keeps _ h := nomatch h
  hashes := rfl
  found := rfl

namespace Regular

theorem eq_of_job_eq {d : Call} (h : Regular s) (hc : c ∈ s.calls) (hd : d ∈ s.calls)
    (he : c.job = d.job) : c = d :=
  List.inj_on_of_nodup_map (h.jobs ▸ h.usage.once) hc hd he

theorem act {usage : Usage} (h : Regular s) (hu : usage.Regular) (begun : usage.begun = s.usage.begun)
    (held : ∀ c ∈ s.calls, ¬ c.IsOver → c.job ∈ s.usage.held → c.job ∈ usage.held) :
    Regular { s with usage } where
  usage := hu
  jobs := h.jobs.trans begun.symm
  keeps c hc := { h.keeps c hc with holds := fun ho => held c hc ho ((h.keeps c hc).holds ho) }
  hashes := h.hashes
  found := h.found

theorem kind_of_check (check : s.backend.check r = .ok ()) :
    s.type = .cpu → r.params.kind = .nonce :=
  accepts_iff.1 (Backend.check_eq_ok_iff.1 check).2

theorem call {job : Job} {usage : Usage} (h : Regular s) (check : s.backend.check r = .ok ())
    (step : s.usage.Step (.begin r.device parent) (.begun job) usage) :
    Regular (s.begun r parent job usage) := by
  obtain ⟨-, -, hjob, -, hbegun, hheld, -, -⟩ := step.begun_iff
  obtain ⟨hlegal, -⟩ := Call.legal_start (kind_of_check check) job
    (s.usage.tokens.isCancelled parent)
  refine ⟨h.usage.step step, ?_, fun c hc => ?_, ?_, ?_⟩
  · show (s.calls ++ [_]).map Call.job = usage.begun
    rw [List.map_append, h.jobs, hbegun]
    rfl
  · rcases List.mem_append.1 hc with hc | hc
    · refine { h.keeps c hc with holds := fun ho => ?_ }
      show c.job ∈ usage.held
      exact hheld ▸ List.mem_append_left _ ((h.keeps c hc).holds ho)
    · obtain rfl := List.mem_singleton.1 hc
      refine ⟨hlegal, ?_, (Backend.check_eq_ok_iff.1 check).1, fun _ => ?_⟩
      · subst hjob
        rfl
      · show job ∈ usage.held
        exact hheld ▸ List.mem_append_right _ (List.mem_singleton_self job)
  · show s.stats.hashes = ((s.calls ++ [_]).map _).sum
    rw [List.map_append, List.sum_append, ← h.hashes]
    rfl
  · show s.stats.found = ((s.calls ++ [_]).map _).sum
    rw [List.map_append, List.sum_append, ← h.found]
    rfl

theorem turn {c' : Call} {stats : Stats} (h : Regular s) (get : s.calls[n]? = some c)
    (turn : c.Turn (s.seen c) stats c') (legal : c'.Legal s.type) :
    Regular (s.took n stats c') := by
  have hc := h.keeps c (List.mem_of_getElem? get)
  refine ⟨h.usage, ?_, fun d hd => ?_, ?_, ?_⟩
  · -- the search keeps its job, so the jobs in their order are the same
    show (s.calls.set n c').map Call.job = s.usage.begun
    obtain ⟨hn, rfl⟩ := List.getElem?_eq_some_iff.1 get
    rw [← h.jobs, List.map_set, turn.job, ← List.map_set, List.set_getElem_self]
  · rcases List.mem_or_eq_of_mem_set hd with hd | rfl
    · exact { h.keeps d hd with }
    · refine ⟨legal, ?_, ?_, fun _ => ?_⟩
      · rw [turn.job, turn.request]
        exact hc.device
      · rw [turn.request]
        exact hc.inside
      · rw [turn.job]
        exact hc.holds turn.open_
  · show s.stats.hashes + stats.hashes = _
    rw [h.hashes]
    exact (sum_map_set get (congrArg Stats.hashes turn.added)).symm
  · show s.stats.found + stats.found = _
    rw [h.found]
    exact (sum_map_set get (congrArg Stats.found turn.added)).symm

theorem leave {x : Registry.Answer} {usage : Usage} (h : Regular s) (get : s.calls[n]? = some c)
    (ended : c.IsOver) (step : s.usage.Step (.drop c.job) x usage) : Regular { s with usage } := by
  have hu := h.usage.step step
  cases step with
  | drop held =>
    -- a search that is not over is another one, and its job another job
    refine h.act hu rfl fun d hd ho hj => ?_
    refine (List.mem_erase_of_ne fun he => ?_).2 hj
    obtain rfl := h.eq_of_job_eq hd (List.mem_of_getElem? get) he
    exact ho ended

theorem step (h : Regular s) (st : Step s m t) : Regular t := by
  cases st with
  | act isOpen step =>
    have hu := h.usage.step step
    cases step with
    | begin | refuse | drop | cancelJob => cases isOpen
    | root | child | stop | stopAll | cancel => exact h.act hu rfl fun _ _ _ hj => hj
  | refuse => exact h
  | call check _ step => exact h.call check step
  | batch get turn =>
    have legal := (h.keeps _ (List.mem_of_getElem? get)).legal
    exact h.turn get (Call.turn_of_batch? turn) (legal.batch turn)
  | look get turn =>
    have legal := (h.keeps _ (List.mem_of_getElem? get)).legal
    exact h.turn get (Call.turn_of_look? turn) (legal.look turn)
  | leave get ended step => exact h.leave get ended step

end Regular

end HeaderMiner.Service
