import Mathlib.Data.List.Nodup
import HeaderMiner.Proofs.Worker.Cancellation
import HeaderMiner.Worker.Usage
/-!
# What one act does to a registry

Whatever callers do, the devices in the registry are those of the jobs that are held, and no two held
jobs have one device (`Usage.Regular`).  This is what makes it right that a job which is dropped is
looked up by its device.

No token is given out twice (`Regular.distinct`), so a job is known by its token, and no token of the
callers' own is a job's.  An act strikes a token that it cancels, or those of the jobs that it cancels or
that it stops while they are held; what stands under these is cancelled with them, and nothing else
(`Regular.isCancelled_iff`).  Callers may make tokens and begin jobs under the token of a job, so that
can be another job; a token that no job stands above is out of the jobs' reach (`IsOutside`).
-/

namespace HeaderMiner.Registry.Usage

variable {u v : Usage} {a : Act} {x : Answer} {j k : Job} {t parent : Token} {d : Nat}

/-! ## the tokens that callers have -/

theorem owns_iff : u.owns t = true ↔ t ∈ u.own := List.contains_iff_mem

theorem own_subset_hand (u : Usage) : u.own ⊆ u.hand := List.subset_append_left ..

theorem token_mem_hand (hj : j ∈ u.begun) : j.token ∈ u.hand :=
  List.mem_append_right _ (List.mem_map_of_mem hj)

theorem hand_begin (own : List Token) (begun : List Job) (j : Job) :
    own ++ (begun ++ [j]).map Job.token = own ++ begun.map Job.token ++ [j.token] := by
  rw [List.map_append, List.append_assoc]
  rfl

/-! ## what an act can come to -/

inductive Step (u : Usage) : Act → Answer → Usage → Prop
  | root : Step u .root (.made u.tokens.root.1)
      { u with tokens := u.tokens.root.2, own := u.tokens.root.1 :: u.own }
  | child {parent : Token} (given : parent ∈ u.hand) :
      Step u (.child parent) (.made (u.tokens.child parent).1)
        { u with tokens := (u.tokens.child parent).2, own := (u.tokens.child parent).1 :: u.own }
  | begin {device : Nat} {parent : Token} {job : Job} (given : parent ∈ u.hand)
      (free : u.registry.find? device = none)
      (job_eq : job = ⟨device, parent, (u.tokens.child parent).1⟩) :
      Step u (.begin device parent) (.begun job)
        { u with
          registry := { jobs := u.registry.jobs ++ [(job.device, job.token)] }
          tokens := (u.tokens.child parent).2
          begun := u.begun ++ [job]
          held := u.held ++ [job] }
  | refuse {device : Nat} {parent t : Token} (given : parent ∈ u.hand)
      (busy : u.registry.find? device = some t) :
      Step u (.begin device parent) (.refused (.jobInProgress device)) u
  | drop {job : Job} (held : job ∈ u.held) :
      Step u (.drop job) .done
        { u with registry := u.registry.release job.device, held := u.held.erase job }
  | stop (device : Nat) :
      Step u (.stop device) (.stopped (u.registry.stop u.tokens device).1)
        { u with tokens := (u.registry.stop u.tokens device).2 }
  | stopAll : Step u .stopAll .done { u with tokens := u.registry.stopAll u.tokens }
  | cancel {token : Token} (own : token ∈ u.own) :
      Step u (.cancel token) .done { u with tokens := u.tokens.cancel token }
  | cancelJob {job : Job} (begun : job ∈ u.begun) :
      Step u (.cancelJob job) .done { u with tokens := u.tokens.cancel job.token }

theorem act_begin (given : parent ∈ u.hand) :
    u.act (.begin d parent) = match u.registry.find? d with
      | some _ => some (.refused (.jobInProgress d), u)
      | none => some (.begun ⟨d, parent, (u.tokens.child parent).1⟩, { u with
          registry := { jobs := u.registry.jobs ++ [(d, (u.tokens.child parent).1)] }
          tokens := (u.tokens.child parent).2
          begun := u.begun ++ [⟨d, parent, (u.tokens.child parent).1⟩]
          held := u.held ++ [⟨d, parent, (u.tokens.child parent).1⟩] }) := by
  dsimp only [act]
  rw [if_pos given]
  cases hf : u.registry.find? d with
  | some t => rw [start_of_busy _ _ hf]
  | none => rw [start_of_free _ _ hf]

theorem act_eq_some_iff : u.act a = some (x, v) ↔ Step u a x v := by
  constructor
  · intro h
    cases a with
    | root => cases h; exact .root
    | stop device => cases h; exact .stop device
    | stopAll => cases h; exact .stopAll
    | child parent =>
      obtain ⟨given, h⟩ := Option.ite_none_right_eq_some.1 h
      cases h; exact .child given
    | drop job =>
      obtain ⟨held, h⟩ := Option.ite_none_right_eq_some.1 h
      cases h; exact .drop held
    | cancel token =>
      obtain ⟨owns, h⟩ := Option.ite_none_right_eq_some.1 h
      cases h; exact .cancel (owns_iff.1 owns)
    | cancelJob job =>
      obtain ⟨begun, h⟩ := Option.ite_none_right_eq_some.1 h
      cases h; exact .cancelJob begun
    | begin device parent =>
      obtain ⟨given, -⟩ := Option.ite_none_right_eq_some.1 h
      rw [act_begin given] at h
      split at h
      · next busy => cases h; exact .refuse given busy
      · next free => cases h; exact .begin given free rfl
  · intro h
    cases h with
    | root | stop | stopAll => rfl
    | child given => exact if_pos given
    | cancel own => exact if_pos (owns_iff.2 own)
    | drop held | cancelJob held => exact if_pos held
    | begin given free job_eq =>
      subst job_eq
      rw [act_begin given, free]
    | refuse given busy => rw [act_begin given, busy]

theorem Step.own_subset (s : Step u a x v) : u.own ⊆ v.own := by
  cases s with
  | root | child => exact List.subset_cons_self ..
  | begin | refuse | drop | stop | stopAll | cancel | cancelJob => exact List.Subset.refl _

theorem Step.begun_subset (s : Step u a x v) : u.begun ⊆ v.begun := by
  cases s with
  | begin => exact List.subset_append_left ..
  | root | child | refuse | drop | stop | stopAll | cancel | cancelJob => exact List.Subset.refl _

theorem Step.begun_iff {v : Usage} (s : Step u (.begin d parent) (.begun j) v) :
    parent ∈ u.hand ∧ u.registry.find? d = none ∧ j = ⟨d, parent, (u.tokens.child parent).1⟩ ∧
      v.tokens = (u.tokens.child parent).2 ∧ v.begun = u.begun ++ [j] ∧ v.held = u.held ++ [j] ∧
      v.own = u.own ∧ v.registry = { jobs := u.registry.jobs ++ [(j.device, j.token)] } := by
  cases s with
  | begin given free job_eq => exact ⟨given, free, job_eq, rfl, rfl, rfl, rfl, rfl⟩

/-! ## the registry and the jobs -/

/-- what callers cannot break -/
structure Regular (u : Usage) : Prop where
  jobs : u.registry.jobs = u.held.map fun j => (j.device, j.token)
  devices : (u.held.map Job.device).Nodup
  begun : u.held ⊆ u.begun
  sound : u.tokens.Sound
  knows : ∀ t ∈ u.hand, u.tokens.Knows t
  /-- no token is given out twice -/
  distinct : u.hand.Nodup
  child : ∀ j ∈ u.begun, ∃ n, j.token = n :: j.parent

theorem regular_empty : Regular {} where
  jobs := rfl
  devices := List.nodup_nil
  begun := List.Subset.refl _
  sound := fun _ h => nomatch h
  knows := fun _ h => nomatch h
  distinct := List.nodup_nil
  child := fun _ h => nomatch h

namespace Regular

/-! ## tokens -/

theorem once (h : Regular u) : u.begun.Nodup :=
  (List.nodup_append.1 h.distinct).2.1.of_map _

theorem eq_of_token (h : Regular u) (hj : j ∈ u.begun) (hk : k ∈ u.begun)
    (he : j.token = k.token) : j = k :=
  List.inj_on_of_nodup_map (List.nodup_append.1 h.distinct).2.1 hj hk he

theorem ne_token (h : Regular u) (ht : t ∈ u.own) (hj : j ∈ u.begun) : t ≠ j.token :=
  (List.nodup_append.1 h.distinct).2.2 t ht _ (List.mem_map_of_mem hj)

theorem child_not_mem_hand (h : Regular u) (parent : Token) :
    (u.tokens.child parent).1 ∉ u.hand :=
  fun hm => Tokens.not_child_suffix (h.knows _ hm) parent List.suffix_rfl

/-- a job's token stands under itself and what its parent stands under -/
theorem suffix_token_iff (h : Regular u) (hj : j ∈ u.begun) :
    t <:+ j.token ↔ t = j.token ∨ t <:+ j.parent := by
  obtain ⟨n, he⟩ := h.child j hj
  rw [he, List.suffix_cons_iff]

/-! ## devices -/

theorem find?_eq_some_iff (h : Regular u) :
    u.registry.find? d = some t ↔ ∃ j ∈ u.held, j.device = d ∧ j.token = t := by
  have hf : u.registry.find? d = (u.held.find? fun j => j.device == d).map Job.token := by
    unfold find?
    rw [h.jobs, List.find?_map, Option.map_map]
    rfl
  rw [hf, Option.map_eq_some_iff]
  constructor
  · rintro ⟨j, hj, rfl⟩
    have hd := List.find?_some hj
    exact ⟨j, List.mem_of_find?_eq_some hj, eq_of_beq hd, rfl⟩
  · rintro ⟨j, hj, rfl, rfl⟩
    obtain ⟨k, hk⟩ : ∃ k, u.held.find? (fun k => k.device == j.device) = some k :=
      Option.isSome_iff_exists.1 (List.find?_isSome.2 ⟨j, hj, beq_self_eq_true j.device⟩)
    have hd := List.find?_some hk
    obtain rfl : k = j :=
      List.inj_on_of_nodup_map h.devices (List.mem_of_find?_eq_some hk) hj (eq_of_beq hd)
    exact ⟨k, hk, rfl⟩

theorem find?_eq_none_iff (h : Regular u) :
    u.registry.find? d = none ↔ ∀ j ∈ u.held, j.device ≠ d := by
  rw [Option.eq_none_iff_forall_not_mem]
  constructor
  · intro hn j hj hd
    exact hn j.token (h.find?_eq_some_iff.2 ⟨j, hj, hd, rfl⟩)
  · intro hn t ht
    obtain ⟨j, hj, hd, -⟩ := h.find?_eq_some_iff.1 ht
    exact hn j hj hd

theorem knows_registered (h : Regular u) : ∀ r ∈ u.registry.jobs, u.tokens.Knows r.2 := by
  intro r hr
  rw [h.jobs] at hr
  obtain ⟨j, hj, rfl⟩ := List.mem_map.1 hr
  exact h.knows _ (token_mem_hand (h.begun hj))

/-! ## what acts keep -/

theorem make (h : Regular u) (hp : u.tokens.Knows parent) :
    Regular { u with
      tokens := (u.tokens.child parent).2, own := (u.tokens.child parent).1 :: u.own } where
  jobs := h.jobs
  devices := h.devices
  begun := h.begun
  sound := h.sound.child parent
  knows := by
    intro t ht
    rcases List.mem_cons.1 ht with rfl | ht
    · exact hp.child
    · exact (h.knows t ht).mono (Nat.le_succ _)
  distinct := List.nodup_cons.2 ⟨h.child_not_mem_hand parent, h.distinct⟩
  child := h.child

theorem start (h : Regular u) (hp : parent ∈ u.hand) (free : u.registry.find? d = none)
    (hj : j = ⟨d, parent, (u.tokens.child parent).1⟩) :
    Regular { u with
      registry := { jobs := u.registry.jobs ++ [(j.device, j.token)] }
      tokens := (u.tokens.child parent).2
      begun := u.begun ++ [j]
      held := u.held ++ [j] } where
  jobs := by rw [h.jobs, List.map_append]; rfl
  devices := by
    rw [List.map_append, List.map_singleton, List.nodup_append]
    refine ⟨h.devices, List.nodup_singleton _, ?_⟩
    intro d' hd' e he
    obtain rfl := List.mem_singleton.1 he
    obtain ⟨k, hk, rfl⟩ := List.mem_map.1 hd'
    subst hj
    exact h.find?_eq_none_iff.1 free k hk
  begun := List.append_subset.2
    ⟨List.Subset.trans h.begun (List.subset_append_left ..), List.subset_append_right ..⟩
  sound := h.sound.child parent
  knows t ht := by
    rw [hand, hand_begin] at ht
    rcases List.mem_append.1 ht with ht | ht
    · exact (h.knows t ht).mono (Nat.le_succ _)
    · obtain rfl := List.mem_singleton.1 ht
      subst hj
      exact (h.knows _ hp).child
  distinct := by
    rw [hand, hand_begin, ← List.concat_eq_append]
    subst hj
    exact h.distinct.concat (h.child_not_mem_hand parent)
  child k hk := by
    rcases List.mem_append.1 hk with hk | hk
    · exact h.child k hk
    · obtain rfl := List.mem_singleton.1 hk
      subst hj
      exact ⟨_, rfl⟩

theorem release (h : Regular u) (hj : j ∈ u.held) :
    Regular { u with registry := u.registry.release j.device, held := u.held.erase j } where
  jobs := by
    show u.registry.jobs.filter _ = _
    -- no other held job has this device, so all jobs of the device are this one
    rw [h.jobs, List.filter_map, (h.devices.of_map _).erase_eq_filter]
    refine congrArg _ (List.filter_congr fun k hk => ?_)
    show (k.device != j.device) = (k != j)
    rw [Bool.eq_iff_iff, bne_iff_ne, bne_iff_ne]
    exact not_congr ⟨List.inj_on_of_nodup_map h.devices hk hj, congrArg Job.device⟩
  devices := h.devices.sublist (List.erase_sublist.map _)
  begun := List.Subset.trans List.erase_subset h.begun
  sound := h.sound
  knows := h.knows
  distinct := h.distinct
  child := h.child

theorem cancel (h : Regular u) {ts : Tokens} (next : ts.next = u.tokens.next) (sound : ts.Sound) :
    Regular { u with tokens := ts } where
  jobs := h.jobs
  devices := h.devices
  begun := h.begun
  sound := sound
  knows t ht := (h.knows t ht).mono (Nat.le_of_eq next.symm)
  distinct := h.distinct
  child := h.child

/-- whatever a caller does, nothing that callers cannot break is broken -/
theorem step (h : Regular u) (s : Step u a x v) : Regular v := by
  cases s with
  | root => exact h.make fun _ hn => nomatch hn
  | child given => exact h.make (h.knows _ given)
  | begin given free job_eq => exact h.start given free job_eq
  | refuse => exact h
  | drop held => exact h.release held
  | stop d => exact h.cancel (next_stop ..) (sound_stop h.sound h.knows_registered d)
  | stopAll => exact h.cancel (next_stopAll ..) (sound_stopAll h.sound h.knows_registered)
  | cancel own => exact h.cancel rfl (h.sound.cancel (h.knows _ (u.own_subset_hand own)))
  | cancelJob begun => exact h.cancel rfl (h.sound.cancel (h.knows _ (token_mem_hand begun)))

end Regular

/-! ## what an act cancels -/

/-- whether an act cancels a job, or is a stop that reaches it while it is held -/
def Stops (u : Usage) (a : Act) (j : Job) : Prop :=
  a = .cancelJob j ∨ j ∈ u.held ∧ (a = .stop j.device ∨ a = .stopAll)

theorem Step.begun_of_stops (s : Step u a x v) (h : Regular u) (hs : u.Stops a j) :
    j ∈ u.begun := by
  rcases hs with rfl | ⟨hj, -⟩
  · cases s with
    | cancelJob begun => exact begun
  · exact h.begun hj

namespace Regular

theorem isCancelled_iff (h : Regular u) (s : Step u a x v) :
    v.tokens.isCancelled t = true ↔ u.tokens.isCancelled t = true ∨
      (∃ c, a = .cancel c ∧ c <:+ t) ∨ ∃ j, u.Stops a j ∧ j.token <:+ t := by
  cases s with
  | root | child | begin | refuse | drop => simp [Stops, Tokens.root, Tokens.isCancelled_child]
  | stop d =>
    rw [isCancelled_stop_iff, or_comm]
    refine or_congr_right ⟨?_, ?_⟩
    · rintro ⟨c, hc, hs⟩
      obtain ⟨j, hj, rfl, rfl⟩ := h.find?_eq_some_iff.1 hc
      exact .inr ⟨j, .inr ⟨hj, .inl rfl⟩, hs⟩
    · rintro (⟨_, hc, -⟩ | ⟨j, hc | ⟨hj, hd⟩, hs⟩)
      · cases hc
      · cases hc
      · obtain rfl : d = j.device := by simpa using hd
        exact ⟨j.token, h.find?_eq_some_iff.2 ⟨j, hj, rfl, rfl⟩, hs⟩
  | stopAll =>
    rw [isCancelled_stopAll_iff, or_comm, h.jobs]
    refine or_congr_right ⟨?_, ?_⟩
    · rintro ⟨r, hr, hs⟩
      obtain ⟨j, hj, rfl⟩ := List.mem_map.1 hr
      exact .inr ⟨j, .inr ⟨hj, .inr rfl⟩, hs⟩
    · rintro (⟨_, hc, -⟩ | ⟨j, hc | ⟨hj, -⟩, hs⟩)
      · cases hc
      · cases hc
      · exact ⟨_, List.mem_map_of_mem hj, hs⟩
  | cancel own =>
    rw [Tokens.isCancelled_cancel_iff, or_comm]
    simp [Stops]
  | cancelJob begun =>
    rw [Tokens.isCancelled_cancel_iff, or_comm]
    refine or_congr_right ⟨fun hs => .inr ⟨_, .inl rfl, hs⟩, ?_⟩
    rintro (⟨_, hc, -⟩ | ⟨j, hc | ⟨-, hc⟩, hs⟩)
    · cases hc
    · cases hc
      exact hs
    · simp at hc

end Regular

/-- whether no job stands above a token -/
def IsOutside (u : Usage) (t : Token) : Prop := ∀ j ∈ u.begun, ¬ j.token <:+ t

end HeaderMiner.Registry.Usage
