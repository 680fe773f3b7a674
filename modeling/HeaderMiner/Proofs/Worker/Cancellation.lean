import HeaderMiner.Worker.Registry
/-!
# What cancelling reaches

Cancelling reaches exactly the token and those under it (`isCancelled_cancel_iff`), and stopping all
jobs of a registry reaches exactly what stands under one of its tokens (`isCancelled_stopAll_iff`).
A new token is cancelled from birth exactly if its parent is (`isCancelled_child_self`); this needs
that nothing has been cancelled whose number was not given out, which every operation keeps.

By devices, a registry changes where a job starts or ends and nowhere else (`find?_of_start`,
`find?_release`).
-/

namespace HeaderMiner

namespace Tokens

variable {ts us : Tokens} {c t parent : Token}

/-- all numbers of a token have been given out -/
def Knows (ts : Tokens) (t : Token) : Prop := ∀ n ∈ t, n < ts.next

/-- only tokens that have been given out are cancelled -/
def Sound (ts : Tokens) : Prop := ∀ c ∈ ts.cancelled, ts.Knows c

theorem Knows.mono (h : ts.Knows t) (hn : ts.next ≤ us.next) : us.Knows t :=
  fun n hm => Nat.lt_of_lt_of_le (h n hm) hn

theorem Knows.child (h : ts.Knows parent) : (ts.child parent).2.Knows (ts.child parent).1 := by
  intro n hn
  show n < ts.next + 1
  rcases List.mem_cons.1 hn with rfl | hn
  · exact Nat.lt_succ_self _
  · exact Nat.lt_succ_of_lt (h n hn)

theorem Sound.child (h : ts.Sound) (parent : Token) : (ts.child parent).2.Sound :=
  fun c hc => (h c hc).mono (Nat.le_succ _)

theorem Sound.cancel (h : ts.Sound) (ht : ts.Knows t) : (ts.cancel t).Sound := by
  intro c hc
  rcases List.mem_cons.1 hc with rfl | hc
  · exact ht
  · exact h c hc

theorem isCancelled_cancel_iff :
    (ts.cancel c).isCancelled t = true ↔ c <:+ t ∨ ts.isCancelled t = true := by
  rw [isCancelled_cancel, Bool.or_eq_true, List.isSuffixOf_iff_suffix]

theorem isCancelled_of_suffix (h : ts.isCancelled parent = true) (hs : parent <:+ t) :
    ts.isCancelled t = true := by
  obtain ⟨c, hc, hp⟩ := (isCancelled_iff ..).1 h
  exact (isCancelled_iff ..).2 ⟨c, hc, hp.trans hs⟩

theorem not_child_suffix (h : ts.Knows t) (parent : Token) : ¬ (ts.child parent).1 <:+ t := by
  intro hs
  have hn : ts.next < ts.next := h _ (hs.mem List.mem_cons_self)
  exact Nat.lt_irrefl _ hn

theorem suffix_child_iff (h : ts.Knows t) : t <:+ (ts.child parent).1 ↔ t <:+ parent := by
  rw [show (ts.child parent).1 = ts.next :: parent from rfl, List.suffix_cons_iff]
  refine or_iff_right fun he => not_child_suffix h parent ?_
  exact he ▸ List.suffix_rfl

theorem isCancelled_child_self (h : ts.Sound) (parent : Token) :
    (ts.child parent).2.isCancelled (ts.child parent).1 = ts.isCancelled parent := by
  rw [isCancelled_child, Bool.eq_iff_iff, isCancelled_iff, isCancelled_iff]
  exact exists_congr fun c => and_congr_right fun hc => suffix_child_iff (h c hc)

end Tokens

namespace Registry

variable {r : Registry} {ts : Tokens} {t : Token}

theorem stopAll_eq (r : Registry) (ts : Tokens) :
    r.stopAll ts = { ts with cancelled := (r.jobs.map (·.2)).reverse ++ ts.cancelled } := by
  unfold stopAll
  generalize r.jobs = jobs
  induction jobs generalizing ts with
  | nil => rfl
  | cons j jobs ih =>
    rw [List.foldl_cons, ih]
    simp [Tokens.cancel]

@[simp] theorem next_stopAll (r : Registry) (ts : Tokens) : (r.stopAll ts).next = ts.next := by
  rw [stopAll_eq]

theorem mem_cancelled_stopAll {c : Token} :
    c ∈ (r.stopAll ts).cancelled ↔ (∃ j ∈ r.jobs, j.2 = c) ∨ c ∈ ts.cancelled := by
  simp [stopAll_eq]

theorem isCancelled_stopAll_iff :
    (r.stopAll ts).isCancelled t = true ↔
      (∃ j ∈ r.jobs, j.2 <:+ t) ∨ ts.isCancelled t = true := by
  simp only [Tokens.isCancelled_iff, mem_cancelled_stopAll]
  constructor
  · rintro ⟨c, ⟨j, hj, rfl⟩ | hc, hs⟩
    · exact .inl ⟨j, hj, hs⟩
    · exact .inr ⟨c, hc, hs⟩
  · rintro (⟨j, hj, hs⟩ | ⟨c, hc, hs⟩)
    · exact ⟨j.2, .inl ⟨j, hj, rfl⟩, hs⟩
    · exact ⟨c, .inr hc, hs⟩

theorem sound_stopAll (h : ts.Sound) (hr : ∀ j ∈ r.jobs, ts.Knows j.2) : (r.stopAll ts).Sound := by
  intro c hc n hn
  rw [next_stopAll]
  rcases mem_cancelled_stopAll.1 hc with ⟨j, hj, rfl⟩ | hc
  · exact hr j hj n hn
  · exact h c hc n hn

theorem isCancelled_stop_iff {device : Nat} :
    (r.stop ts device).2.isCancelled t = true ↔
      (∃ c, r.find? device = some c ∧ c <:+ t) ∨ ts.isCancelled t = true := by
  unfold stop
  cases r.find? device with
  | none => simp
  | some c => simp [Tokens.isCancelled_cancel_iff]

@[simp] theorem next_stop (r : Registry) (ts : Tokens) (device : Nat) :
    (r.stop ts device).2.next = ts.next := by
  unfold stop
  cases r.find? device <;> rfl

theorem sound_stop (h : ts.Sound) (hr : ∀ j ∈ r.jobs, ts.Knows j.2) (device : Nat) :
    (r.stop ts device).2.Sound := by
  unfold stop
  cases hf : r.find? device with
  | none => exact h
  | some c =>
    obtain ⟨j, hj, rfl⟩ := Option.map_eq_some_iff.1 hf
    exact h.cancel (hr j (List.mem_of_find?_eq_some hj))

theorem stop_fst (r : Registry) (ts : Tokens) (device : Nat) :
    (r.stop ts device).1 = (r.find? device).isSome := by
  unfold stop
  cases r.find? device <;> rfl

theorem start_eq_ok_iff {device : Nat} {parent : Token} {r' : Registry} {ts' : Tokens} :
    r.start ts device parent = .ok (t, r', ts') ↔
      r.find? device = none ∧ t = (ts.child parent).1 ∧ ts' = (ts.child parent).2 ∧
        r' = { jobs := r.jobs ++ [(device, t)] } := by
  unfold start
  cases hd : r.find? device with
  | some u => simp
  | none =>
    simp only [Except.ok.injEq, Prod.mk.injEq, true_and]
    constructor
    · rintro ⟨rfl, rfl, rfl⟩
      exact ⟨rfl, rfl, rfl⟩
    · rintro ⟨rfl, rfl, rfl⟩
      exact ⟨rfl, rfl, rfl⟩

theorem start_of_free {device : Nat} (ts : Tokens) (parent : Token) (h : r.find? device = none) :
    r.start ts device parent =
      .ok ((ts.child parent).1, { jobs := r.jobs ++ [(device, (ts.child parent).1)] },
        (ts.child parent).2) := start_eq_ok_iff.2 ⟨h, rfl, rfl, rfl⟩

theorem start_of_busy {device : Nat} (ts : Tokens) (parent : Token)
    (h : r.find? device = some t) : r.start ts device parent = .error (.jobInProgress device) := by
  unfold start
  rw [h]

theorem mem_release {device : Nat} {j : Nat × Token} :
    j ∈ (r.release device).jobs ↔ j ∈ r.jobs ∧ j.1 ≠ device := by
  simp [release]

/-! ## the registry by devices -/

variable {r' : Registry} {us : Tokens} {parent : Token} {d : Nat}

theorem find?_of_start (h : r.start ts d parent = .ok (t, r', us)) (d' : Nat) :
    r'.find? d' = if d' = d then some t else r.find? d' := by
  obtain ⟨hd, rfl, rfl, rfl⟩ := start_eq_ok_iff.1 h
  rw [find?, Option.map_eq_none_iff] at hd
  unfold find?
  rw [List.find?_append]
  split
  · next he =>
    rw [he, hd]
    simp
  · next hne => simp [Ne.symm hne]

theorem find?_release (r : Registry) (d d' : Nat) :
    (r.release d).find? d' = if d' = d then none else r.find? d' := by
  unfold find? release
  rw [List.find?_filter]
  split
  · next he =>
    rw [Option.map_eq_none_iff, List.find?_eq_none]
    intro j _
    simp [he]
  · next hne =>
    congr 2
    funext j
    by_cases hj : j.1 = d'
    · simp [hj, hne]
    · simp [hj]

theorem jobs_eq_nil (h : ∀ d, r.find? d = none) : r.jobs = [] := by
  rw [List.eq_nil_iff_forall_not_mem]
  intro j hj
  have hf := h j.1
  rw [find?, Option.map_eq_none_iff, List.find?_eq_none] at hf
  exact hf j hj (beq_self_eq_true j.1)

end Registry

end HeaderMiner
