import Mathlib.Algebra.Order.BigOperators.Group.List
import Mathlib.Algebra.Order.Group.Nat
import HeaderMiner.Proofs.Trace
import HeaderMiner.Proofs.Worker.Service
/-!
# Searches leave no trace but their totals

Whatever else its callers do, a backend turns a search away without a trace, and one that begins keeps
to its own device: neither its begin nor a turn nor its end changes what is registered for another
device or which tokens are cancelled, and it leaves its own device free, however it has ended
(`History.searches_clean`).

The totals are the sums of what the searches have added.  A nonce search adds a hash for each nonce that
it has hashed, whatever searches run beside it; a search by a solver adds one exactly if the solver
itself has decided it and has ended with success and an answer or blanks.
-/

namespace HeaderMiner.Service

open Registry (Act Job Usage)

variable {type : BackendType} {devices : Nat} {s t : Service} {m : Move} {n d : Nat} {r : Request}
  {parent : Token} {e : Error} {c : Call}

/-! ## one search beside others -/

/-- nothing changes but on one device: other devices keep their jobs, and no token is cancelled -/
structure SameBut (d : Nat) (s t : Service) : Prop where
  elsewhere : ∀ d' ≠ d, t.usage.registry.find? d' = s.usage.registry.find? d'
  tokens : ∀ token, t.usage.tokens.isCancelled token = s.usage.tokens.isCancelled token

theorem call?_of_check (h : s.backend.check r = .error e) (parent : Token) :
    s.call? r parent = some (.error e) := by
  unfold call?
  rw [h]

/-- a search that is turned away is not begun by the backend, and nothing changes -/
theorem next_of_refused (h : s.call? r parent = some (.error e)) :
    s.next (.call r parent) = some s ∧ s.backend.begin s.usage.tokens r parent = .error e := by
  refine ⟨next_eq_some_iff.2 (.refuse h), ?_⟩
  unfold call? at h
  split at h
  · next e' hc =>
    cases h
    exact Backend.begin_of_check hc
  · next hc =>
    obtain ⟨-, h⟩ := Option.ite_none_right_eq_some.1 h
    split at h
    · cases h
    · next e' usage ha =>
      cases h
      cases Usage.act_eq_some_iff.1 ha with
      | refuse given busy =>
        unfold Backend.begin
        rw [hc, show s.backend.registry = s.usage.registry from rfl,
          Registry.start_of_busy _ _ busy]
        rfl
    · cases h

theorem call?_of_busy {token : Token} (check : s.backend.check r = .ok ())
    (own : parent ∈ s.usage.own) (busy : s.usage.registry.find? r.device = some token) :
    s.call? r parent = some (.error (.jobInProgress r.device)) := by
  unfold call?
  dsimp only
  rw [check, if_pos (Usage.owns_iff.2 own), Usage.act_eq_some_iff.2 (.refuse (s.usage.own_subset_hand own) busy)]

theorem exists_call (check : s.backend.check r = .ok ()) (own : parent ∈ s.usage.own)
    (free : s.usage.registry.find? r.device = none) :
    ∃ c t, s.call? r parent = some (.ok t) ∧ s.next (.call r parent) = some t ∧
      s.backend.begin s.usage.tokens r parent =
        .ok (⟨r, c.job.token⟩, t.backend, t.usage.tokens) ∧
      t.calls = s.calls ++ [c] ∧ c.request = r ∧ ¬ c.IsOver ∧ t.stats = s.stats ∧
      t.usage.registry.find? r.device = some c.job.token ∧ SameBut r.device s t := by
  have step := Usage.Step.begin (s.usage.own_subset_hand own) free rfl
  have started := Registry.start_of_free s.usage.tokens parent free
  have found := Registry.find?_of_start started
  obtain ⟨-, hopen⟩ := Call.legal_start (Regular.kind_of_check check) _
    (s.usage.tokens.isCancelled parent)
  refine ⟨_, _, call?_eq_ok_iff.2 ⟨check, own, _, _, step, rfl⟩,
    next_eq_some_iff.2 (.call check own step),
    Backend.begin_eq_ok_iff.2 ⟨check, _, _, started, rfl, rfl⟩, rfl, rfl, hopen, rfl,
    (found _).trans (if_pos rfl), ?_, fun _ => rfl⟩
  exact fun d' hd => (found d').trans (if_neg hd)

theorem exists_turn (h : s.next (.batch n) = some t ∨ ∃ l, s.next (.look n l) = some t) :
    t.usage = s.usage ∧ ∃ c c' stats, s.calls[n]? = some c ∧ t.calls[n]? = some c' ∧
      c'.request = c.request ∧ c'.job = c.job ∧ c'.added = c.added.add stats ∧
      t.stats = s.stats.add stats ∧ ∀ k ≠ n, t.calls[k]? = s.calls[k]? := by
  obtain ⟨c, c', stats, get, turn, rfl⟩ : ∃ c c' stats, s.calls[n]? = some c ∧
      c.Turn (s.seen c) stats c' ∧ s.took n stats c' = t := by
    rcases h with h | ⟨l, h⟩
    · cases next_eq_some_iff.1 h with
      | batch get turn => exact ⟨_, _, _, get, Call.turn_of_batch? turn, rfl⟩
    · cases next_eq_some_iff.1 h with
      | look get turn => exact ⟨_, _, _, get, Call.turn_of_look? turn, rfl⟩
  have hn : n < s.calls.length := (List.getElem?_eq_some_iff.1 get).1
  exact ⟨rfl, c, c', stats, get, List.getElem?_set_self hn, turn.request, turn.job, turn.added, rfl,
    fun k hk => List.getElem?_set_ne (Ne.symm hk)⟩

theorem Regular.exists_leave (h : Regular s) (get : s.calls[n]? = some c) (ended : c.IsOver)
    (held : c.job ∈ s.usage.held) :
    ∃ t, s.next (.leave n) = some t ∧ t.calls = s.calls ∧ t.stats = s.stats ∧
      t.usage.registry.find? c.request.device = none ∧ SameBut c.request.device s t := by
  have found := Registry.find?_release s.usage.registry c.job.device
  rw [(h.keeps c (List.mem_of_getElem? get)).device] at found
  refine ⟨_, next_eq_some_iff.2 (.leave get ended (.drop held)), rfl, rfl, ?_, ?_, fun _ => rfl⟩
  · rw [(h.keeps c (List.mem_of_getElem? get)).device]
    exact (found _).trans (if_pos rfl)
  · intro d' hd
    rw [(h.keeps c (List.mem_of_getElem? get)).device]
    exact (found d').trans (if_neg hd)

theorem Regular.find?_of_held (h : Regular s) (hc : c ∈ s.calls) (held : c.job ∈ s.usage.held) :
    s.usage.registry.find? c.request.device = some c.job.token :=
  h.usage.find?_eq_some_iff.2 ⟨c.job, held, (h.keeps c hc).device, rfl⟩

/-! ## histories -/

abbrev History (type : BackendType) (devices : Nat) :=
  Trace next ({ type, devices } : Service)

namespace History

theorem regular (h : History type devices) : Regular h.state := by
  induction h using Trace.induction with
  | start => exact regular_new type devices
  | extend h m t ht ih => exact ih.step (next_eq_some_iff.1 ht)

theorem type_eq (h : History type devices) : h.state.type = type ∧ h.state.devices = devices := by
  induction h using Trace.induction with
  | start => exact ⟨rfl, rfl⟩
  | extend h m t ht ih =>
    cases next_eq_some_iff.1 ht with
    | act | refuse | call | batch | look | leave => exact ih

/-- the totals fit words of 64 bits as long as less than `2 ^ 32` searches have begun -/
theorem hashes_le (h : History type devices) :
    h.state.stats.hashes ≤ h.state.calls.length * 2 ^ 32 := by
  have hr := regular h
  rw [hr.hashes, ← List.length_map (fun c : Call => c.added.hashes)]
  refine List.sum_le_card_nsmul _ _ fun k hk => ?_
  obtain ⟨c, hc, rfl⟩ := List.mem_map.1 hk
  exact (hr.keeps c hc).legal.hashes_le

/-- Whatever happens on a backend, a search is turned away without a trace, for its device before all
else; one that begins has its device until it leaves, and neither its begin nor its turns nor its end
change another device or any token; and the totals are the sums of what the searches have added: one
for a solver that has decided its search itself and has answered, and one for each nonce that has been
hashed. -/
theorem searches_clean (h : History type devices) :
    (∀ r parent,
      (devices ≤ r.device → h.state.call? r parent = some (.error (.noDevice r.device))) ∧
      (r.device < devices → type = .cpu ∧ r.params.kind = .cycle →
        h.state.call? r parent =
          some (.error (.backend "cpu" "cycle parameters are not supported"))) ∧
      (∀ e, h.state.call? r parent = some (.error e) →
        h.state.next (.call r parent) = some h.state ∧
        h.state.backend.begin h.state.usage.tokens r parent = .error e) ∧
      (r.device < devices → (type = .cpu → r.params.kind = .nonce) →
        parent ∈ h.state.usage.own →
        ((h.state.usage.registry.find? r.device).isSome →
          h.state.call? r parent = some (.error (.jobInProgress r.device))) ∧
        (h.state.usage.registry.find? r.device = none →
          ∃ c t, h.state.call? r parent = some (.ok t) ∧
            h.state.next (.call r parent) = some t ∧
            h.state.backend.begin h.state.usage.tokens r parent =
              .ok (⟨r, c.job.token⟩, t.backend, t.usage.tokens) ∧
            t.calls = h.state.calls ++ [c] ∧ c.request = r ∧ ¬ c.IsOver ∧
            t.stats = h.state.stats ∧ t.usage.registry.find? r.device = some c.job.token ∧
            SameBut r.device h.state t))) ∧
    (∀ n t, (h.state.next (.batch n) = some t ∨ ∃ l, h.state.next (.look n l) = some t) →
      t.usage = h.state.usage ∧ ∃ c c' stats, h.state.calls[n]? = some c ∧ t.calls[n]? = some c' ∧
        c'.request = c.request ∧ c'.job = c.job ∧ c'.added = c.added.add stats ∧
        t.stats = h.state.stats.add stats ∧ ∀ k ≠ n, t.calls[k]? = h.state.calls[k]?) ∧
    (∀ c ∈ h.state.calls, ¬ c.IsOver → c.job ∈ h.state.usage.held) ∧
    (∀ c ∈ h.state.calls, c.job ∈ h.state.usage.held →
      h.state.usage.registry.find? c.request.device = some c.job.token) ∧
    (∀ n c, h.state.calls[n]? = some c → c.IsOver → c.job ∈ h.state.usage.held →
      ∃ t, h.state.next (.leave n) = some t ∧ t.calls = h.state.calls ∧ t.stats = h.state.stats ∧
        t.usage.registry.find? c.request.device = none ∧ SameBut c.request.device h.state t) ∧
    (h.state.stats.hashes = (h.state.calls.map fun c => c.added.hashes).sum ∧
      h.state.stats.found = (h.state.calls.map fun c => c.added.found).sum) ∧
    ∀ c ∈ h.state.calls,
      (∀ result, c.stage = .decided result →
        h.state.backend.conclude ⟨c.request, c.job.token⟩ c.course = (result, c.added)) ∧
      (type = .external → (¬ c.IsOver → c.added = {}) ∧
        ∀ result, c.stage = .decided result → ∃ l e cancelled, c.last = some (l, e) ∧
          l.ending? cancelled = some e ∧
          (c.added.hashes = 1 ↔ e.IsAnswered) ∧ c.added.hashes ≤ 1 ∧
          (c.added.found = 1 ↔ ∃ candidate, result = .ok candidate ∧ candidate.isMatch = true) ∧
          c.added.found ≤ 1) ∧
      (type = .cpu → ∃ p candidate sweep, c.request.params = .nonce p ∧
        Sweep.run? c.request.header c.request.target p.nonce p.range c.course.seen =
          some (candidate, sweep) ∧
        c.added.hashes = sweep.tried.length ∧
        ∀ result, c.stage = .decided result → result = .ok candidate) := by
  have hr := regular h
  obtain ⟨htype, hdevices⟩ := type_eq h
  refine ⟨fun r parent => ⟨?_, ?_, fun e => next_of_refused, ?_⟩, fun n t => exists_turn,
    fun c hc => (hr.keeps c hc).holds, fun c => hr.find?_of_held, fun n c => hr.exists_leave,
    ⟨hr.hashes, hr.found⟩, fun c hc => ⟨fun result hs => ?_, ?_, ?_⟩⟩
  · intro hd
    exact call?_of_check (Backend.check_of_le (Nat.le_trans (Nat.le_of_eq hdevices) hd)) parent
  · rintro hd ⟨ht, hk⟩
    have hin : r.device < h.state.backend.devices := Nat.lt_of_lt_of_eq hd hdevices.symm
    refine call?_of_check (Backend.check_of_not_accepts hin ?_) parent
    rw [Bool.eq_false_iff, ne_eq, accepts_iff, htype, ht, hk]
    exact fun hf => nomatch hf rfl
  · intro hd hk own
    have hin : r.device < h.state.backend.devices := Nat.lt_of_lt_of_eq hd hdevices.symm
    have check := Backend.check_eq_ok_iff.2 ⟨hin, accepts_iff.2 (htype.symm ▸ hk)⟩
    refine ⟨fun hb => ?_, exists_call check own⟩
    obtain ⟨token, busy⟩ := Option.isSome_iff_exists.1 hb
    exact call?_of_busy check own busy
  · exact (hr.keeps c hc).legal.conclude_eq hs rfl _
  · rintro rfl
    have legal : c.Legal .external := htype ▸ (hr.keeps c hc).legal
    refine ⟨legal.added_of_open, fun result hs => ?_⟩
    obtain ⟨l, e, cancelled, hlast, hsees, hcon⟩ := legal.exists_last hs
    exact ⟨l, e, cancelled, hlast, hsees, Solver.added_of_conclude hcon⟩
  · rintro rfl
    have legal : c.Legal .cpu := htype ▸ (hr.keeps c hc).legal
    exact legal.exists_sweep

end History

end HeaderMiner.Service
