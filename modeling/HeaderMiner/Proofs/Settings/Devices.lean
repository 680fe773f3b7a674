import HeaderMiner.Miner.State
import HeaderMiner.Proofs.Header.Writing
import HeaderMiner.Proofs.Settings.Acceptance
import HeaderMiner.Proofs.Worker.Failures
import HeaderMiner.Proofs.Worker.Fanout
/-!
# Accepted settings and the devices there are

Four places say how many devices there are: the check of the pinned device, which takes zero for a
number that it does not know; the backend, for which zero is one on each core, or one if it runs a
solver; the round, which has one search on the pinned device or one on each; and the search, which
is refused if its device is not there.

Where the number does not depend on the machine, accepted settings always make a backend, and it
knows the parameters of all its searches.  All devices are there too, unless the settings pin another
device than the first for a solver and leave their number open (`Settings.IsOverlooked`): the check
does not compare then, and every round is refused (`Settings.makeBackend_of_validate`).
-/

namespace HeaderMiner

/-! ## backends that serve a plan -/

/-- whether a backend serves all rounds of a plan: their searches name devices that it has and carry
parameters of its kind, and none of the rounds is refused -/
structure Backend.Serves (b : Backend) (p : Round.Plan) : Prop where
  device_lt : ∀ h target tails, ∀ r ∈ p.requests h target tails, r.device < b.devices
  kind_eq : ∀ h target tails, ∀ r ∈ p.requests h target tails, r.params.kind = b.type.kind
  not_refused : ∀ h target tails results,
    List.Forall₂ b.Answers (p.requests h target tails) results →
      ∀ e, Round.settle results = .error e → ¬ e.IsRefusal

namespace Backend

variable {b : Backend} {p : Round.Plan}

theorem accepts_of_kind {q : Params} (h : q.kind = b.type.kind) : b.accepts q = true := by
  unfold accepts
  rw [h]
  cases b.type <;> rfl

/-- a round is not refused if none of its searches is -/
theorem serves_of_requests
    (hd : ∀ h target tails, ∀ r ∈ p.requests h target tails, r.device < b.devices)
    (hk : p.params.kind = b.type.kind) : b.Serves p where
  device_lt := hd
  kind_eq h target tails r hr := (Round.Plan.kind_params hr).trans hk
  not_refused := by
    intro h target tails results ha e he
    obtain ⟨i, hi⟩ := List.mem_iff_getElem?.1 (Round.mem_of_settle_error he)
    obtain ⟨r, hrequest, hanswer⟩ := exists_answers ha hi
    have hr : r ∈ p.requests h target tails := List.mem_of_getElem? hrequest
    have hcheck : b.check r = .ok () :=
      check_eq_ok_iff.2 ⟨hd _ _ _ _ hr, accepts_of_kind ((Round.Plan.kind_params hr).trans hk)⟩
    exact not_isRefusal_of_check hcheck hanswer

/-- a round on a device that is not there is refused, whatever happens -/
theorem settle_of_no_device {d : Nat} (hp : p.device = some d) (hd : b.devices ≤ d) {h : Header}
    {target : Target} {tails : Nat → Octets 12} {results : List (Except Error Candidate)}
    (ha : List.Forall₂ b.Answers (p.requests h target tails) results) :
    Round.settle results = .error (.noDevice d) := by
  rw [Round.Plan.requests_of_pinned hp] at ha
  have hdev : (p.request h target (tails 0) 0).device = d := by
    simp only [Round.Plan.request, hp, Option.getD]
  have hcheck : b.check (p.request h target (tails 0) 0) = .error (.noDevice d) := by
    rw [check_of_le (hdev ▸ hd), hdev]
  cases ha with
  | cons hfirst hrest =>
    cases hrest
    rw [eq_of_answers_of_check hcheck hfirst]
    rfl

end Backend

/-! ## settings -/

namespace Settings

variable {c : Settings}

/-- whether the number of devices does not depend on the machine -/
def HasFixedDevices (c : Settings) : Prop :=
  (c .backend : BackendType) = .external ∨ (c .deviceCount : UInt32) ≠ 0

/-- whether the settings pin another device than the first for a solver and leave the number open -/
def IsOverlooked (c : Settings) : Prop :=
  (c .backend : BackendType) = .external ∧ (c .deviceCount : UInt32) = 0 ∧
    ∃ d, (c .device : Option UInt32) = some d ∧ d ≠ 0

def plan (c : Settings) (b : Backend) : Round.Plan :=
  (Miner.Setup.ofBackend (c .network) b c.params c.device).plan

theorem pinned {d : UInt32} (hd : (c .device : Option UInt32) = some d) (b : Backend) :
    (c.plan b).device = some d.toNat := congrArg (Option.map UInt32.toNat) hd

theorem kind_params (c : Settings) : c.params.kind = (c .backend : BackendType).kind := by
  unfold params
  cases (c .backend : BackendType) <;> rfl

/-- a number of devices that does not depend on the machine is at least one -/
theorem devices_eq (hf : c.HasFixedDevices) (cores : Nat) :
    c.devices cores = max (c .deviceCount : UInt32).toNat 1 := by
  unfold devices
  cases hb : (c .backend : BackendType) with
  | external => rfl
  | cpu =>
    have hn : (c .deviceCount : UInt32) ≠ 0 := by
      rcases hf with he | hn
      · rw [hb] at he
        cases he
      · exact hn
    have hpos : (c .deviceCount : UInt32).toNat ≠ 0 := fun h => hn (UInt32.toNat_inj.1 h)
    show (if (c .deviceCount : UInt32).toNat = 0 then cores else _) = _
    rw [if_neg hpos]
    exact (Nat.max_eq_left (Nat.pos_of_ne_zero hpos)).symm

theorem IsAccepted.makeBackend (h : c.IsAccepted) (cores : Nat) :
    c.makeBackend cores = .ok (c.newBackend cores) := by
  unfold Settings.makeBackend
  split
  · next hb hc =>
    have hcommand : c.hasCommand = true := h.command hb
    unfold hasCommand at hcommand
    rw [hc] at hcommand
    cases hcommand
  · rfl

/-- a pinned device is there unless it has been overlooked -/
theorem IsAccepted.device_lt_iff (h : c.IsAccepted) (hf : c.HasFixedDevices) (cores : Nat)
    {d : UInt32} (hd : (c .device : Option UInt32) = some d) :
    d.toNat < (c.newBackend cores).devices ↔ ¬ c.IsOverlooked := by
  have hdevices : (c.newBackend cores).devices = max (c .deviceCount : UInt32).toNat 1 :=
    devices_eq hf cores
  rw [hdevices]
  by_cases hn : (c .deviceCount : UInt32) = 0
  · have hb : (c .backend : BackendType) = .external := hf.resolve_right (not_not_intro hn)
    have hd0 : d.toNat < 1 ↔ d = 0 := by
      rw [Nat.lt_one_iff]
      exact UInt32.toNat_inj (b := 0)
    rw [hn]
    show d.toNat < 1 ↔ _
    rw [hd0]
    constructor
    · rintro rfl ⟨-, -, d', hd', hne⟩
      rw [hd] at hd'
      cases hd'
      exact hne rfl
    · intro hno
      exact Decidable.not_not.1 fun hne => hno ⟨hb, hn, d, hd, hne⟩
  · have hlt : d.toNat < (c .deviceCount : UInt32).toNat := UInt32.lt_iff_toNat_lt.1 (h.device d hd hn)
    exact iff_of_true (Nat.lt_of_lt_of_le hlt (Nat.le_max_left ..)) fun ho => hn ho.2.1

/-- the backend of accepted settings serves all their rounds exactly if they are not overlooked -/
theorem IsAccepted.serves_iff (h : c.IsAccepted) (hf : c.HasFixedDevices) (cores : Nat) :
    (c.newBackend cores).Serves (c.plan (c.newBackend cores)) ↔ ¬ c.IsOverlooked := by
  constructor
  · intro hs ho
    obtain ⟨-, -, d, hd, -⟩ := id ho
    have hlt : d.toNat < (c.newBackend cores).devices := by
      -- any round shows it, as all of them search on this device
      obtain ⟨r, hr⟩ : ∃ r, r ∈ (c.plan (c.newBackend cores)).requests .blank .max default := by
        rw [Round.Plan.requests_of_pinned (pinned hd _)]
        exact ⟨_, List.mem_singleton_self _⟩
      rw [← Round.Plan.device_of_pinned (pinned hd _) hr]
      exact hs.device_lt _ _ _ _ hr
    exact (h.device_lt_iff hf cores hd).1 hlt ho
  · intro ho
    refine Backend.serves_of_requests (fun header target tails r hr => ?_) c.kind_params
    cases hd : (c .device : Option UInt32) with
    | none => exact Round.Plan.device_lt_of_open (congrArg (Option.map UInt32.toNat) hd) hr
    | some d =>
      rw [Round.Plan.device_of_pinned (pinned hd _) hr]
      exact (h.device_lt_iff hf cores hd).2 ho

/-- accepted settings make a backend that knows the parameters of its searches, and it serves all
their rounds exactly if they are not overlooked; if they are, every round is refused -/
theorem makeBackend_of_validate (hv : c.validate = .ok ()) (hf : c.HasFixedDevices) (cores : Nat) :
    ∃ b, c.makeBackend cores = .ok b ∧
      (∀ h target tails, ∀ r ∈ (c.plan b).requests h target tails,
        r.params.kind = b.type.kind ∧ b.accepts r.params = true) ∧
      (b.Serves (c.plan b) ↔ ¬ c.IsOverlooked) ∧
      (c.IsOverlooked → ∀ h target tails results,
        List.Forall₂ b.Answers ((c.plan b).requests h target tails) results →
          ∃ d, Round.settle results = .error (.noDevice d)) := by
  have h : c.IsAccepted := isAccepted_of_validate hv
  refine ⟨c.newBackend cores, h.makeBackend cores, ?_, h.serves_iff hf cores, ?_⟩
  · intro header target tails r hr
    have hkind : r.params.kind = (c.newBackend cores).type.kind :=
      (Round.Plan.kind_params hr).trans c.kind_params
    exact ⟨hkind, Backend.accepts_of_kind hkind⟩
  · intro ho header target tails results ha
    obtain ⟨-, -, d, hd, -⟩ := id ho
    have hle : (c.newBackend cores).devices ≤ d.toNat :=
      Nat.not_lt.1 fun hlt => (h.device_lt_iff hf cores hd).1 hlt ho
    exact ⟨d.toNat, Backend.settle_of_no_device (pinned hd _) hle ha⟩

namespace Trial

def solver (device : Option UInt32) : Settings :=
  (((Given.empty.set .backend BackendType.external).set .externalCommand
    (some "solver")).set .device device).complete

theorem isAccepted_solver (device : Option UInt32) : (solver device).IsAccepted where
  url := isAccepted_builtIn.url
  pollInterval := isAccepted_builtIn.pollInterval
  command _ := by
    show (!(Text.trim "solver".toList).isEmpty) = true
    decide +kernel
  device _ _ hn := absurd rfl hn

end Trial

/-- a solver with one device left open serves all its rounds -/
theorem makeBackend_of_validate_solver :
    (Trial.solver none).validate = .ok () ∧ (Trial.solver none).HasFixedDevices ∧
    ∃ b, (Trial.solver none).makeBackend 8 = .ok b ∧ b.Serves ((Trial.solver none).plan b) := by
  have hv : (Trial.solver none).validate = .ok () := (Trial.isAccepted_solver none).validate
  have hf : (Trial.solver none).HasFixedDevices := .inl rfl
  obtain ⟨b, hb, -, hs, -⟩ := makeBackend_of_validate hv hf 8
  exact ⟨hv, hf, b, hb, hs.2 fun ⟨_, _, _, hd, _⟩ => nomatch hd⟩

/-- accepted settings can pin a second device for a solver that has one -/
theorem not_always_serves : ¬ ∀ (c : Settings) (cores : Nat), c.validate = .ok () →
    c.HasFixedDevices → ∃ b, c.makeBackend cores = .ok b ∧ b.Serves (c.plan b) := by
  intro hall
  have h : (Trial.solver (some 1)).IsAccepted := Trial.isAccepted_solver _
  have hf : (Trial.solver (some 1)).HasFixedDevices := .inl rfl
  obtain ⟨b, hb, hs⟩ := hall _ 8 h.validate hf
  rw [h.makeBackend 8] at hb
  cases hb
  exact (h.serves_iff hf 8).1 hs ⟨rfl, rfl, 1, rfl, by decide⟩

end Settings

end HeaderMiner
