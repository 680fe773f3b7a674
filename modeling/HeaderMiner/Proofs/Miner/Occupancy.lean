import Mathlib.Data.List.Nodup
import HeaderMiner.Proofs.Miner.Assertions
import HeaderMiner.Proofs.Miner.Lifetime
import HeaderMiner.Proofs.Miner.Trial
import HeaderMiner.Proofs.Worker.Failures
/-!
# Which devices are occupied

The searches of a round are on different devices, and a device is occupied exactly while a search of
the open round runs on it (`Occupied`).  So a search that has not begun yet finds its device free,
whatever has become of the others, and when the last search of a round has ended the registry is
empty, however they have ended.  No search ever fails because its device is busy: what fails is
refused by the checks, or has come back with a failure of its own (`Fails`).
-/

namespace HeaderMiner

theorem Round.Plan.nodup_devices (p : Plan) (h : Header) (target : Target)
    (tails : Nat → Octets 12) : ((p.requests h target tails).map (·.device)).Nodup := by
  cases hd : p.device with
  | some d =>
    rw [requests_of_pinned hd]
    exact List.nodup_singleton _
  | none =>
    have he : (p.requests h target tails).map (·.device) = List.range p.workers := by
      unfold requests
      rw [List.map_map]
      conv_rhs => rw [← List.map_id (List.range p.workers)]
      congr 1
      funext i
      simp [request, hd]
    rw [he]
    exact List.nodup_range

/-- what the checks of a backend say is that it does not do such searches -/
theorem Backend.isRefusal_of_check {b : Backend} {r : Request} {e : Error}
    (h : b.check r = .error e) : e.IsRefusal := by
  by_cases hd : b.devices ≤ r.device
  · rw [check_of_le hd] at h
    cases h
    exact .noDevice _
  · unfold check at h
    rw [if_neg hd] at h
    cases ha : b.accepts r.params with
    | true =>
      rw [ha] at h
      cases h
    | false =>
      rw [ha] at h
      cases h
      exact .unsupported

namespace Miner

/-! ## the searches of a round by devices -/

def Search.Hold (qs : List Search) (d : Nat) (t : Token) : Prop :=
  ∃ q ∈ qs, q.request.device = d ∧ q.phase = .running t

theorem Search.devices_ofRequests (job : Token) (ts : Tokens) (rs : List Request) :
    (ofRequests job ts rs).1.map (·.request.device) = rs.map (·.device) := by
  have hr := congrArg (List.map Request.device) (map_request_ofRequests job ts rs)
  rwa [List.map_map] at hr

theorem Search.map_request_set {qs : List Search} {i : Nat} {q : Search} (hq : qs[i]? = some q)
    (phase : Phase) : (qs.set i { q with phase }).map (·.request) = qs.map (·.request) := by
  obtain ⟨hi, rfl⟩ := List.getElem?_eq_some_iff.1 hq
  have hm : i < (qs.map (·.request)).length := by rwa [List.length_map]
  have hr : qs[i].request = (qs.map (·.request))[i] := by rw [List.getElem_map]
  rw [List.map_set, hr, List.set_getElem_self]

theorem Search.devices_set {qs : List Search} {i : Nat} {q : Search} (hq : qs[i]? = some q)
    (phase : Phase) : (qs.set i { q with phase }).map (·.request.device) =
      qs.map (·.request.device) := by
  have hr := congrArg (List.map Request.device) (map_request_set hq phase)
  rwa [List.map_map, List.map_map] at hr

theorem Search.mem_set_iff {qs : List Search} {i : Nat} {q : Search} (hq : qs[i]? = some q)
    (distinct : (qs.map (·.request.device)).Nodup) (phase : Phase) {p : Search} :
    p ∈ qs.set i { q with phase } ↔
      p = { q with phase } ∨ p ∈ qs ∧ p.request.device ≠ q.request.device := by
  obtain ⟨hi, rfl⟩ := List.getElem?_eq_some_iff.1 hq
  constructor
  · intro hp
    obtain ⟨j, hj, rfl⟩ := List.mem_iff_getElem.1 hp
    rw [List.length_set] at hj
    rw [List.getElem_set]
    split
    · exact .inl rfl
    · next hij =>
      refine .inr ⟨List.getElem_mem hj, fun hd => hij ?_⟩
      have hmi : i < (qs.map (·.request.device)).length := by rwa [List.length_map]
      have hmj : j < (qs.map (·.request.device)).length := by rwa [List.length_map]
      have he : (qs.map (·.request.device))[i] = (qs.map (·.request.device))[j] := by
        rw [List.getElem_map, List.getElem_map, hd]
      exact distinct.getElem_inj_iff.1 he
  · rintro (rfl | ⟨hp, hd⟩)
    · exact List.mem_set hi _
    · obtain ⟨j, hj, rfl⟩ := List.mem_iff_getElem.1 hp
      have hij : i ≠ j := by
        rintro rfl
        exact hd rfl
      rw [← List.getElem_set_ne hij (by simpa using hj)]
      exact List.getElem_mem _

theorem Search.hold_set {qs : List Search} {i : Nat} {q : Search} (hq : qs[i]? = some q)
    (distinct : (qs.map (·.request.device)).Nodup) (phase : Phase) (d : Nat) (t : Token) :
    Hold (qs.set i { q with phase }) d t ↔
      if d = q.request.device then phase = .running t else Hold qs d t := by
  unfold Hold
  simp only [mem_set_iff hq distinct]
  split
  · next hd =>
    constructor
    · rintro ⟨p, rfl | ⟨_, hne⟩, hpd, hpt⟩
      · exact hpt
      · exact absurd (hpd.trans hd) hne
    · intro hp
      exact ⟨_, .inl rfl, hd.symm, hp⟩
  · next hd =>
    constructor
    · rintro ⟨p, rfl | ⟨hp, _⟩, hpd, hpt⟩
      · exact absurd hpd.symm hd
      · exact ⟨p, hp, hpd, hpt⟩
    · rintro ⟨p, hp, hpd, hpt⟩
      exact ⟨p, .inr ⟨hp, fun hne => hd (hpd.symm.trans hne)⟩, hpd, hpt⟩

namespace State

variable {su : Setup} {s t : State} {m : Move} {es : List Event}

/-! ## occupied devices -/

/-- which devices are occupied: those on which a search of the open round runs -/
structure Occupied (s : State) : Prop where
  distinct : (s.loop.searches.map (·.request.device)).Nodup
  held : ∀ d t, s.registry.find? d = some t ↔ Search.Hold s.loop.searches d t

theorem Occupied.free (v : Occupied s) {d : Nat} (h : ∀ t, ¬ Search.Hold s.loop.searches d t) :
    s.registry.find? d = none := by
  cases hf : s.registry.find? d with
  | none => rfl
  | some t => exact absurd ((v.held d t).1 hf) (h t)

/-- a search that has not begun finds its device free: no other search is on it -/
theorem Occupied.free_of_waiting (v : Occupied s) {q : Search} (hq : q ∈ s.loop.searches)
    (hw : q.phase = .waiting) : s.registry.find? q.request.device = none := by
  refine v.free ?_
  rintro t ⟨p, hp, hd, ht⟩
  have he : p = q := List.inj_on_of_nodup_map v.distinct hp hq hd
  rw [he, hw] at ht
  cases ht

theorem Occupied.jobs_eq_nil (v : Occupied s)
    (h : ∀ q ∈ s.loop.searches, ∀ t, q.phase ≠ .running t) : s.registry.jobs = [] := by
  refine Registry.jobs_eq_nil fun d => v.free ?_
  rintro t ⟨q, hq, _, ht⟩
  exact h q hq t ht

theorem Occupied.jobs_eq_nil_of_idle (v : Occupied s) (h : s.loop.searches = []) :
    s.registry.jobs = [] := by
  refine v.jobs_eq_nil ?_
  rw [h]
  exact nofun

theorem Occupied.quiet (v : Occupied s) (hl : t.loop.searches = s.loop.searches)
    (hr : t.registry = s.registry) : Occupied t := by
  constructor
  · rw [hl]
    exact v.distinct
  · rw [hl, hr]
    exact v.held

/-- where no search runs, other searches that do not run yet may come instead -/
theorem Occupied.renew (v : Occupied s) (h : ∀ q ∈ s.loop.searches, ∀ t, q.phase ≠ .running t)
    (hr : t.registry = s.registry) (hd : (t.loop.searches.map (·.request.device)).Nodup)
    (hw : ∀ q ∈ t.loop.searches, ∀ t, q.phase ≠ .running t) : Occupied t := by
  refine ⟨hd, fun d u => iff_of_false ?_ ?_⟩
  · rw [hr, Registry.find?, v.jobs_eq_nil h]
    exact Option.some_ne_none u ∘ Eq.symm
  · rintro ⟨q, hq, _, hu⟩
    exact hw q hq u hu

theorem Occupied.set (v : Occupied s) {f : Focus} {n i : Nat} {qs : List Search} {q : Search}
    {phase : Phase} (loop : s.loop = .round f n qs) (search : qs[i]? = some q)
    (hl : t.loop = .round f n (qs.set i { q with phase }))
    (hr : ∀ d u, t.registry.find? d = some u ↔
      if d = q.request.device then phase = .running u else s.registry.find? d = some u) :
    Occupied t := by
  have hs : s.loop.searches = qs := by rw [loop]; rfl
  have ht : t.loop.searches = qs.set i { q with phase } := by rw [hl]; rfl
  have distinct : (qs.map (·.request.device)).Nodup := hs ▸ v.distinct
  constructor
  · rw [ht, Search.devices_set search]
    exact distinct
  · intro d u
    rw [ht, hr, Search.hold_set search distinct, v.held, hs]

theorem searches_launch (v : Lifetime s) : s.launch.1.loop.searches = s.loop.searches :=
  loop_launch Loop.searches rfl rfl v

theorem registry_resume (s : State) (a : Asker) : (s.resume a).registry = s.registry :=
  frame_resume State.registry (fun _ _ _ => rfl) s a

theorem Occupied.step {jobs : List Job} (v : Occupied s) (f : Lifetime s) (l : Ledger s jobs)
    (ht : Transition su s m t es) : Occupied t := by
  -- between two rounds there are no searches
  have idle {a b : Loop} (ha : s.loop = a) (hb : t.loop = b) (has : a.searches = [])
      (hbs : b.searches = []) (hr : t.registry = s.registry) : Occupied t :=
    v.quiet (by rw [ha, hb, has, hbs]) hr
  -- a round ends when none of its searches runs any more
  have close {g : Focus} {n : Nat} {qs : List Search} {rs : List (Except Error Candidate)}
      (loop : s.loop = .round g n qs) (ended : qs.mapM Search.result? = some rs)
      (hb : t.loop.searches = []) (hr : t.registry = s.registry) : Occupied t := by
    refine v.renew ?_ hr (by rw [hb]; exact List.nodup_nil) (by rw [hb]; exact nofun)
    intro q hq u hu
    rw [loop] at hq
    obtain ⟨r, he⟩ := Search.exists_of_mem_searches ended hq
    rw [he] at hu
    cases hu
  cases ht with
  | tick | poll | stop | startRun | fire | leaveRun | endRun => exact v.quiet rfl rfl
  | @keep _ _ _ q _ _ _ _ => exact v.quiet (searches_resume ..) (registry_resume ..)
  | @fail _ _ _ q e _ _ _ _ => exact v.quiet (searches_resume ..) (registry_resume ..)
  | @install _ _ clock q w _ _ =>
    obtain ⟨mining, loop, he⟩ := exists_install (s.without q) w clock
    refine v.quiet ?_ ?_
    · rw [searches_resume, install_eq,
        searches_launch ((f.without q).seated (l.without q) w clock)]
      rfl
    · rw [registry_resume, he]
      rfl
  | enter loop | miss loop | finish loop | overrun loop | endPause loop | inquire loop
  | goOn loop => exact idle loop rfl rfl rfl rfl
  | @dispatch g mo header _ loop _ _ =>
    refine v.renew (by rw [loop]; exact nofun) rfl ?_ ?_
    · show ((Search.ofRequests _ _ _).1.map (·.request.device)).Nodup
      rw [Search.devices_ofRequests]
      exact su.plan.nodup_devices ..
    · intro q hq u hu
      rw [Search.phase_ofRequests hq] at hu
      cases hu
  | @reject i g n qs q e loop search waiting _ =>
    refine v.set loop search rfl fun d u => ?_
    split
    · next hd =>
      have hq : q ∈ s.loop.searches := by
        rw [loop]
        exact List.mem_of_getElem? search
      have hf : s.registry.find? d = none := hd ▸ v.free_of_waiting hq waiting
      refine iff_of_false ?_ nofun
      show s.registry.find? d ≠ some u
      rw [hf]
      exact nofun
    · rfl
  | @begin i g n qs q token registry tokens loop search _ _ started =>
    refine v.set loop search rfl fun d u => ?_
    rw [Registry.find?_of_start started]
    split <;> simp
  | @release i g n qs q token result loop search _ =>
    refine v.set loop search rfl fun d u => ?_
    rw [Registry.find?_release]
    split <;> simp
  | pause loop ended | pass loop ended | misfit loop ended | submit loop ended =>
    exact close loop ended rfl rfl

theorem frame_endRound (ht : Transition su s .endRound t es) :
    t.loop.searches = [] ∧ t.registry = s.registry := by
  cases ht <;> exact ⟨rfl, rfl⟩

/-! ## why searches and rounds fail -/

/-- what can have made a search fail: the checks, or a failure that it has come back with -/
def Cause (su : Setup) (ms : List Move) (e : Error) : Prop :=
  (∃ r, su.check r = .error e) ∨ ∃ i, .endSearch i (.error e) ∈ ms

theorem Cause.mono {ms ms' : List Move} {e : Error} (h : Cause su ms e) (hs : ms ⊆ ms') :
    Cause su ms' e := h.imp_right fun ⟨i, hi⟩ => ⟨i, hs hi⟩

/-- the searches of the open round, and the rounds on a record, have failed for a cause -/
structure Fails (su : Setup) (s : State) (ms : List Move) (record : List Event) : Prop where
  search : ∀ q ∈ s.loop.searches, ∀ e, q.phase = .ended (.error e) → Cause su ms e
  round : ∀ n e, .ended n (.error e) ∈ record → Cause su ms e

variable {ms : List Move} {record : List Event}

theorem exists_of_ended (ht : Transition su s m t es) {n : Nat} {e : Error}
    (he : .ended n (.error e) ∈ es) : ∃ q ∈ s.loop.searches, q.phase = .ended (.error e) := by
  cases ht with
  | @pause f k qs rs e' loop ended settled =>
    cases List.mem_singleton.1 he
    have hm : .error e ∈ rs := Round.mem_of_settle_error settled
    rw [loop]
    exact Search.exists_of_mem_results ended hm
  | install => rcases mem_install he with h | h | h | h <;> cases h
  | _ => simp [ask, dispatch] at he

theorem Fails.step (v : Fails su s ms record) (o : Occupied s) (ht : Transition su s m t es) :
    Fails su t (ms ++ [m]) (record ++ es) := by
  have old : ms ⊆ ms ++ [m] := List.subset_append_left ..
  constructor
  · intro p hp e he
    rcases mem_searches_step ht hp with hp | hw | ⟨q, hq, phase, rfl, h | ⟨k, rfl⟩ | ⟨i, r, rfl, h⟩⟩
    · exact (v.search p hp e he).mono old
    · rw [hw] at he
      cases he
    · obtain ⟨e', rfl, hw, hc | hb⟩ := h
      · obtain rfl : e' = e := by simpa using he
        exact .inl ⟨_, hc⟩
      · rw [Registry.start_of_free _ _ (o.free_of_waiting hq hw)] at hb
        cases hb
    · cases he
    · obtain rfl : r = .error e := by simpa using h.symm.trans he
      exact .inr ⟨i, List.mem_append_right _ (List.mem_singleton.2 rfl)⟩
  · intro n e he
    rcases List.mem_append.1 he with he | he
    · exact (v.round n e he).mono old
    · obtain ⟨q, hq, hp⟩ := exists_of_ended ht he
      exact (v.search q hq e hp).mono old

/-! ## the backend of a miner -/

/-- the backend of a miner that nobody else uses -/
def backend (s : State) (b : Backend) : Backend := { b with registry := s.registry }

/-- what asking a backend for a search comes to, which only its checks can refuse -/
def Books (s : State) (b : Backend) (q : Search) (t : State) (phase : Phase) : Prop :=
  match (s.backend b).begin s.tokens q.request q.parent with
  | .error e => b.check q.request = .error e ∧ t.registry = s.registry ∧ phase = .ended (.error e)
  | .ok (i, b', us) => t.backend b = b' ∧ t.tokens = us ∧ phase = .running i.token

/-- what the end of a search on a backend comes to, whatever course it has taken -/
def Frees (s : State) (b : Backend) (i : Invocation) (course : Backend.Course) (t : State)
    (result : Except Error Candidate) : Prop :=
  ((s.backend b).finish i course).1 = result ∧
    ((s.backend b).finish i course).2.registry = t.registry ∧
    ∀ d, t.registry.find? d = if d = i.request.device then none else s.registry.find? d

variable {b : Backend} {f : Focus} {n i : Nat} {qs : List Search} {q : Search}

theorem step_beginSearch (hl : s.loop = .round f n qs) (hq : qs[i]? = some q)
    (hw : q.phase = .waiting) :
    s.step su (.beginSearch i) =
      some ({ (s.beginSearch su q).2 with loop := .round f n (qs.set i (s.beginSearch su q).1) },
        []) := by
  simp only [step, hl, hq, hw]

theorem step_endSearch {token : Token} (hl : s.loop = .round f n qs) (hq : qs[i]? = some q)
    (hr : q.phase = .running token) (r : Except Error Candidate) :
    s.step su (.endSearch i r) =
      some ({ (s.endSearch q r).2 with loop := .round f n (qs.set i (s.endSearch q r).1) }, []) := by
  simp only [step, hl, hq, hr]

/-- a search whose device is free is begun as its backend begins it -/
theorem exists_books (hc : su.check = b.check) (hf : s.registry.find? q.request.device = none)
    (hl : s.loop = .round f n qs) (hq : qs[i]? = some q) (hw : q.phase = .waiting) :
    ∃ t phase, s.step su (.beginSearch i) = some (t, []) ∧
      t.loop = .round f n (qs.set i { q with phase }) ∧ s.Books b q t phase := by
  rw [step_beginSearch hl hq hw]
  unfold State.beginSearch Books
  rw [hc]
  cases hk : b.check q.request with
  | error e =>
    have hb : (s.backend b).begin s.tokens q.request q.parent = .error e :=
      Backend.begin_of_check hk
    rw [hb]
    exact ⟨_, _, rfl, rfl, rfl, rfl, rfl⟩
  | ok u =>
    have hs := Registry.start_of_free s.tokens q.parent hf
    have hb := Backend.begin_eq_ok_iff (b := s.backend b) |>.2 ⟨hk, _, _, hs, rfl, rfl⟩
    rw [hb]
    simp only [hs]
    exact ⟨_, _, rfl, rfl, rfl, rfl, rfl⟩

/-- a search that runs can end in any course, and frees its device as its backend does -/
theorem exists_frees {token : Token} (hl : s.loop = .round f n qs) (hq : qs[i]? = some q)
    (hr : q.phase = .running token) (course : Backend.Course) :
    ∃ t result, s.step su (.endSearch i result) = some (t, []) ∧
      t.loop = .round f n (qs.set i { q with phase := .ended result }) ∧
      s.Frees b ⟨q.request, token⟩ course t result :=
  ⟨_, _, step_endSearch hl hq hr _, rfl, rfl, rfl, Registry.find?_release s.registry _⟩

end State

namespace History

variable {su : Setup} {h : History su}

theorem occupied (h : History su) : State.Occupied h.state := by
  induction h using induction with
  | start => exact ⟨List.nodup_nil, fun d t => iff_of_false nofun (by rintro ⟨q, hq, _⟩; cases hq)⟩
  | extend h m t es hs ih => exact ih.step h.lifetime h.ledger (State.transition_of_step hs)

theorem fails (h : History su) : State.Fails su h.state h.moves h.record := by
  induction h using induction with
  | start => exact ⟨nofun, nofun⟩
  | extend h m t es hs ih => exact ih.step h.occupied (State.transition_of_step hs)

/-- whether the searches have come back with what searches on a backend come back with -/
def IsServedBy (h : History su) (b : Backend) : Prop :=
  ∀ i r, .endSearch i r ∈ h.moves → ∃ invocation course, (b.conclude invocation course).1 = r

variable {network : Network} {b : Backend} {params : Params} {device : Option Nat}

/-- no search and no round fails because a device is busy -/
theorem not_jobInProgress {h : History (.ofBackend network b params device)} {d : Nat}
    (served : h.IsServedBy b) :
    ¬ State.Cause (.ofBackend network b params device) h.moves (.jobInProgress d) := by
  rintro (⟨r, hr⟩ | ⟨i, hi⟩)
  · cases Backend.isRefusal_of_check hr
  · obtain ⟨invocation, course, he⟩ := served i _ hi
    exact nomatch Backend.isFailure_of_conclude he

/-- Whatever happens in whatever order, the devices of a round are different ones, and those that
the registry holds are those on which a search runs; so it holds none between two rounds, and none
any more when a round can end.  A search that is about to begin finds its device free, and only the
checks can refuse it; one that runs frees its device in whatever course it ends.  Nothing fails
because of a busy device. -/
theorem booked_once (h : History (.ofBackend network b params device)) :
    (h.state.loop.searches.map (·.request.device)).Nodup ∧
    (∀ d t, h.state.registry.find? d = some t ↔ Search.Hold h.state.loop.searches d t) ∧
    ((∀ f n qs, h.state.loop ≠ .round f n qs) → h.state.registry.jobs = []) ∧
    (∀ t es, h.state.step (.ofBackend network b params device) .endRound = some (t, es) →
      h.state.registry.jobs = [] ∧ t.registry.jobs = []) ∧
    (∀ f n qs i q, h.state.loop = .round f n qs → qs[i]? = some q →
      (q.phase = .waiting → h.state.registry.find? q.request.device = none ∧
        ∃ t phase, h.state.step (.ofBackend network b params device) (.beginSearch i)
            = some (t, []) ∧
          t.loop = .round f n (qs.set i { q with phase }) ∧ h.state.Books b q t phase) ∧
      ∀ token course, q.phase = .running token →
        ∃ t result, h.state.step (.ofBackend network b params device) (.endSearch i result)
            = some (t, []) ∧
          t.loop = .round f n (qs.set i { q with phase := .ended result }) ∧
          h.state.Frees b ⟨q.request, token⟩ course t result) ∧
    (h.IsServedBy b → ∀ d,
      (∀ q ∈ h.state.loop.searches, q.phase ≠ .ended (.error (.jobInProgress d))) ∧
      ∀ n, .ended n (.error (.jobInProgress d)) ∉ h.record) := by
  have o : State.Occupied h.state := h.occupied
  refine ⟨o.distinct, o.held, ?_, ?_, ?_, ?_⟩
  · intro hl
    have hs : h.state.loop.searches = [] := by
      cases hk : h.state.loop with
      | round f n qs => exact absurd hk (hl f n qs)
      | _ => rfl
    exact o.jobs_eq_nil_of_idle hs
  · intro t es hs
    obtain ⟨hl, hr⟩ := State.frame_endRound (State.transition_of_step hs)
    have ht : t.registry.jobs = [] := (h.extend _ t es hs).occupied.jobs_eq_nil_of_idle hl
    exact ⟨hr ▸ ht, ht⟩
  · intro f n qs i q hl hq
    constructor
    · intro hw
      have hm : q ∈ h.state.loop.searches := by
        rw [hl]
        exact List.mem_of_getElem? hq
      have hf := o.free_of_waiting hm hw
      exact ⟨hf, State.exists_books rfl hf hl hq hw⟩
    · intro token course hr
      exact State.exists_frees hl hq hr course
  · intro served d
    constructor
    · intro q hq hp
      exact not_jobInProgress served (h.fails.search q hq _ hp)
    · intro n he
      exact not_jobInProgress served (h.fails.round n _ he)

end History

/-! ## a round that fails -/

namespace Trial

/-- external solvers on two devices -/
def solvers : Backend := { type := .external, devices := 2 }

/-- one search of a round is out of time, and the other is cancelled by new work -/
def expired : History (.ofBackend .testnet solvers (.cycle {}) none) :=
  (History.start _)
    |>.go .tick (by decide +kernel)
    |>.receive ⟨0, .caller⟩ (work 1 0 255) (by decide +kernel) (by decide +kernel)
    |>.go .enter (by decide +kernel)
    |>.go (.turn moment) (by decide +kernel)
    |>.go (.beginSearch 0) (by decide +kernel)
    |>.go (.beginSearch 1) (by decide +kernel)
    |>.go (.endSearch 1 (.error (.timeout "external solver"))) (by decide +kernel)
    |>.go .tick (by decide +kernel)
    |>.receive ⟨1, .caller⟩ (work 2 0 255) (by decide +kernel) (by decide +kernel)
    |>.go (.endSearch 0 (.ok .none)) (by decide +kernel)

theorem booked_once_expired :
    expired.IsServedBy solvers ∧ ∃ t es,
      expired.state.step (.ofBackend .testnet solvers (.cycle {}) none) .endRound = some (t, es) ∧
        t.registry.jobs = [] ∧
        ∀ d, ∀ q ∈ expired.state.loop.searches, q.phase ≠ .ended (.error (.jobInProgress d)) := by
  have served : expired.IsServedBy solvers := by
    intro i r hm
    have hc : i = 1 ∧ r = .error (.timeout "external solver") ∨ i = 0 ∧ r = .ok .none := by
      simpa [expired, History.go, History.receive, History.extend, History.start] using hm
    have request : Request := ⟨(work 1 0 255).header, (work 1 0 255).target, .cycle {}, i⟩
    rcases hc with ⟨_, rfl⟩ | ⟨_, rfl⟩
    · exact ⟨⟨request, []⟩, { ending := .solver .endless }, rfl⟩
    · exact ⟨⟨request, []⟩, { ending := .cancelled }, rfl⟩
  obtain ⟨_, _, _, ends, _, fine⟩ := History.booked_once expired
  have possible : (expired.state.step (.ofBackend .testnet solvers (.cycle {}) none)
      .endRound).isSome = true := by decide +kernel
  obtain ⟨⟨t, es⟩, hs⟩ := Option.isSome_iff_exists.1 possible
  exact ⟨served, t, es, hs, (ends t es hs).2, fun d => (fine served d).1⟩

end Trial

end Miner

end HeaderMiner
