import Mathlib.Data.List.Sigma
import HeaderMiner.Proofs.Miner.Occupancy
import HeaderMiner.Proofs.Miner.Submission
import HeaderMiner.Proofs.Worker.Settlement
/-!
# Rounds end when all their searches have

A search of the open round ends when it is refused or when it comes back, and it does so once.
`History.completed` lists the searches of a round in the order in which they have ended, each with
its result and its index.  Whatever that order is and whatever happens in between, the round can end
when the list holds all indices and not before, and then it is the list of results by index in some
order (`Gathered`); so the result of the round does not depend on the order.  And every order is
possible: searches that run can end in any (`exists_steps`).
-/

namespace HeaderMiner.Miner

def Move.search? : Move → Option Nat
  | .beginSearch i | .endSearch i _ => some i
  | _ => none

/-- the searches of one round among those of many -/
def ofRound (n : Nat) (cs : List (Nat × Except Error Candidate × Nat)) :
    List (Except Error Candidate × Nat) :=
  cs.filterMap fun c => if c.1 = n then some c.2 else none

namespace State

/-- the search that has ended with a move which has led here: its round, its result, its index -/
def completion? (t : State) (m : Move) : Option (Nat × Except Error Candidate × Nat) :=
  match t.loop, m.search? with
  | .round _ n qs, some i => (qs[i]?.bind Search.result?).map fun r => (n, r, i)
  | _, _ => none

def completions (su : Setup) (s : State) :
    List Move → List (Nat × Except Error Candidate × Nat)
  | [] => []
  | m :: ms =>
    match s.step su m with
    | none => []
    | some (t, _) => (t.completion? m).toList ++ t.completions su ms

end State

/-! ## the searches of a round that have ended -/

variable {n k : Nat} {r : Except Error Candidate} {i : Nat}
  {cs ds : List (Nat × Except Error Candidate × Nat)}

theorem ofRound_append (n : Nat) (cs ds : List (Nat × Except Error Candidate × Nat)) :
    ofRound n (cs ++ ds) = ofRound n cs ++ ofRound n ds := List.filterMap_append ..

theorem ofRound_self : ofRound n [(n, r, i)] = [(r, i)] := by
  simp [ofRound]

theorem ofRound_of_ne (h : k ≠ n) : ofRound n [(k, r, i)] = [] := by
  simp [ofRound, h]

theorem ofRound_eq_nil (h : ∀ c ∈ cs, c.1 < n) : ofRound n cs = [] := by
  rw [ofRound, List.filterMap_eq_nil_iff]
  intro c hc
  rw [if_neg (Nat.ne_of_lt (h c hc))]

namespace Search

variable {qs : List Search} {q : Search} {rs : List (Except Error Candidate)}
  {ended : List (Except Error Candidate × Nat)}

theorem result?_set (hq : qs[i]? = some q) (phase : Phase) (k : Nat) :
    (qs.set i { q with phase })[k]?.bind result? =
      if k = i then ({ q with phase } : Search).result? else qs[k]?.bind result? := by
  obtain ⟨hi, _⟩ := List.getElem?_eq_some_iff.1 hq
  by_cases h : k = i
  · rw [if_pos h, h, List.getElem?_set_self hi]
    rfl
  · rw [if_neg h, List.getElem?_set_ne fun hi => h hi.symm]

theorem mapM_result?_iff :
    qs.mapM result? = some rs ↔
      qs.length = rs.length ∧ ∀ i : Nat, qs[i]?.bind result? = rs[i]? := by
  have hmap : qs.mapM result? = some rs ↔ qs.map result? = rs.map some := by
    induction qs generalizing rs with
    | nil => cases rs <;> simp
    | cons q qs ih =>
      rw [List.mapM_cons]
      cases rs with
      | nil => cases q.result? <;> cases qs.mapM result? <;> simp
      | cons r rs =>
        rw [List.map_cons, List.map_cons, List.cons.injEq, ← ih]
        cases q.result? <;> cases qs.mapM result? <;> simp
  rw [hmap]
  constructor
  · intro h
    have hl := congrArg List.length h
    rw [List.length_map, List.length_map] at hl
    refine ⟨hl, fun i => ?_⟩
    have hi := congrArg (fun l => l[i]?) h
    rw [List.getElem?_map, List.getElem?_map] at hi
    cases hq : qs[i]? <;> cases hr : rs[i]? <;> simp_all
  · intro h
    refine List.ext_getElem? fun i => ?_
    rw [List.getElem?_map, List.getElem?_map, ← h.2 i]
    by_cases hi : i < qs.length
    · have hr : i < rs.length := h.1 ▸ hi
      have hs := h.2 i
      rw [List.getElem?_eq_getElem hi, List.getElem?_eq_getElem hr] at hs
      rw [List.getElem?_eq_getElem hi]
      have hq : qs[i].result? = some rs[i] := hs
      simp [hq]
    · rw [List.getElem?_eq_none (by omega)]
      rfl

/-- whether a list holds the searches that have ended, each of them once -/
structure Gathers (qs : List Search) (ended : List (Except Error Candidate × Nat)) : Prop where
  once : (ended.map Prod.snd).Nodup
  mem_iff : ∀ r i, (r, i) ∈ ended ↔ qs[i]?.bind result? = some r

theorem gathers_waiting (h : ∀ q ∈ qs, q.phase = .waiting) : Gathers qs [] := by
  refine ⟨List.nodup_nil, fun r i => iff_of_false nofun fun he => ?_⟩
  obtain ⟨q, hq, hr⟩ := Option.bind_eq_some_iff.1 he
  have hw := h q (List.mem_of_getElem? hq)
  rw [phase_of_result? hr] at hw
  cases hw

theorem Gathers.begin (v : Gathers qs ended) (hq : qs[i]? = some q) (hw : q.phase = .waiting)
    (token : Token) : Gathers (qs.set i { q with phase := .running token }) ended := by
  refine ⟨v.once, fun r k => ?_⟩
  rw [v.mem_iff, result?_set hq]
  by_cases h : k = i
  · have hn : q.result? = none := by simp [result?, hw]
    rw [if_pos h, h, hq, Option.bind_some, hn]
    exact iff_of_false nofun nofun
  · rw [if_neg h]

theorem Gathers.end (v : Gathers qs ended) (hq : qs[i]? = some q) (hn : q.result? = none)
    (r : Except Error Candidate) :
    Gathers (qs.set i { q with phase := .ended r }) (ended ++ [(r, i)]) := by
  -- a search that ends has not ended before
  have fresh (r' : Except Error Candidate) : (r', i) ∉ ended := by
    rw [v.mem_iff, hq, Option.bind_some, hn]
    exact nofun
  constructor
  · rw [List.map_append, List.map_singleton, List.nodup_append]
    refine ⟨v.once, List.nodup_singleton _, fun a ha b hb he => ?_⟩
    obtain ⟨c, hc, rfl⟩ := List.mem_map.1 ha
    rw [List.mem_singleton] at hb
    have hi : c.2 = i := he.trans hb
    rw [← hi] at fresh
    exact fresh c.1 hc
  · intro r' k
    rw [List.mem_append, List.mem_singleton, Prod.mk.injEq, result?_set hq]
    by_cases h : k = i
    · subst h
      have hnot := fresh r'
      rw [if_pos rfl]
      show _ ↔ some r = some r'
      rw [Option.some.injEq]
      tauto
    · rw [if_neg h, v.mem_iff]
      tauto

/-- when all searches have ended, the list is that of their results in some order -/
theorem Gathers.perm (v : Gathers qs ended) (h : qs.mapM result? = some rs) :
    ended.Perm rs.zipIdx := by
  have hz : rs.zipIdx.Nodup := List.Nodup.of_map Prod.snd (List.nodup_zipIdx_map_snd rs)
  refine (List.perm_ext_iff_of_nodup (List.Nodup.of_map Prod.snd v.once) hz).2 fun c => ?_
  rw [List.mem_zipIdx_iff_getElem?, ← (mapM_result?_iff.1 h).2]
  exact v.mem_iff c.1 c.2

theorem Gathers.isSome_iff (v : Gathers qs ended) :
    (qs.mapM result?).isSome ↔ ∀ i < qs.length, ∃ r, (r, i) ∈ ended := by
  constructor
  · intro h i hi
    obtain ⟨rs, hr⟩ := Option.isSome_iff_exists.1 h
    obtain ⟨hl, hs⟩ := mapM_result?_iff.1 hr
    have hi : i < rs.length := hl ▸ hi
    exact ⟨rs[i], (v.mem_iff _ i).2 ((hs i).trans (List.getElem?_eq_getElem hi))⟩
  · intro h
    have each (i : Fin qs.length) : ∃ r, qs[i.1].result? = some r := by
      obtain ⟨r, hr⟩ := h i.1 i.2
      rw [v.mem_iff, List.getElem?_eq_getElem i.2] at hr
      exact ⟨r, hr⟩
    choose r hr using each
    have hm : qs.mapM result? = some (List.ofFn r) := by
      refine mapM_result?_iff.2 ⟨(List.length_ofFn ..).symm, fun i => ?_⟩
      by_cases hi : i < qs.length
      · rw [List.getElem?_eq_getElem hi, List.getElem?_ofFn, dif_pos hi]
        exact hr ⟨i, hi⟩
      · rw [List.getElem?_eq_none (by omega), List.getElem?_eq_none (by rw [List.length_ofFn]; omega)]
        rfl
    rw [hm]
    rfl

end Search

namespace State

variable {su : Setup} {s t : State} {m : Move} {record es : List Event} {f : Focus}
  {qs : List Search} {q : Search} {rs : List (Except Error Candidate)}

/-! ## what one step gathers -/

theorem completions_append {ms : List Move} (h : s.steps su ms = some (t, es)) (ns : List Move) :
    s.completions su (ms ++ ns) = s.completions su ms ++ t.completions su ns := by
  induction ms generalizing s es with
  | nil =>
    obtain ⟨rfl, _⟩ := Prod.mk.inj (Option.some.inj h)
    rfl
  | cons m ms ih =>
    obtain ⟨u, fs, gs, hs, hu, _⟩ := steps_cons_eq_some.1 h
    simp only [completions, List.cons_append, hs, ih hu, List.append_assoc]

theorem completion?_of_search {i : Nat} (hl : t.loop = .round f n qs) (hm : m.search? = some i) :
    t.completion? m = (qs[i]?.bind Search.result?).map fun r => (n, r, i) := by
  rw [completion?, hl, hm]

theorem completion?_of_none (hm : m.search? = none) : t.completion? m = none := by
  unfold completion?
  split
  · next hs =>
    rw [hm] at hs
    cases hs
  · rfl

/-- what the list of ended searches tells: of the open round those that have ended, and of a round
that has ended all of them, whose results it has come to -/
structure Gathered (s : State) (record : List Event)
    (cs : List (Nat × Except Error Candidate × Nat)) : Prop where
  known : ∀ c ∈ cs, c.1 < s.rounds
  running : ∀ {f n qs}, s.loop = .round f n qs →
    .dispatched n f.job f.header (qs.map (·.request)) ∈ record ∧
      Search.Gathers qs (ofRound n cs)
  ended : ∀ {n result}, .ended n result ∈ record → ∃ j header requests results,
    .dispatched n j header requests ∈ record ∧ results.length = requests.length ∧
      (ofRound n cs).Perm results.zipIdx ∧ Round.settle results = result

theorem Gathered.quiet (v : Gathered s record cs) (hr : t.rounds = s.rounds)
    (hl : ∀ f n qs, t.loop = .round f n qs → s.loop = .round f n qs)
    (he : ∀ n r, .ended n r ∉ es) : Gathered t (record ++ es) (cs ++ []) := by
  rw [List.append_nil]
  refine ⟨fun c hc => hr ▸ v.known c hc, ?_, ?_⟩
  · intro f n qs h
    obtain ⟨hd, hg⟩ := v.running (hl f n qs h)
    exact ⟨List.mem_append_left _ hd, hg⟩
  · intro n result h
    have hold := (List.mem_append.1 h).resolve_right (he n result)
    obtain ⟨j, header, requests, results, hd, hrest⟩ := v.ended hold
    exact ⟨j, header, requests, results, List.mem_append_left _ hd, hrest⟩

theorem Gathered.dispatch (v : Gathered s record cs) (f : Focus) (mo : Moment) :
    Gathered (s.dispatch su f mo).1 (record ++ (s.dispatch su f mo).2) (cs ++ []) := by
  rw [List.append_nil]
  refine ⟨fun c hc => Nat.lt_succ_of_lt (v.known c hc), ?_, ?_⟩
  · intro g n qs hl
    cases hl
    -- the number of the round is new, so no search of it is on the list
    rw [Search.map_request_ofRequests, ofRound_eq_nil v.known]
    exact ⟨List.mem_append_right _ (List.mem_singleton.2 rfl),
      Search.gathers_waiting fun q hq => Search.phase_ofRequests hq⟩
  · intro n result h
    have hold := (List.mem_append.1 h).resolve_right fun h => nomatch List.mem_singleton.1 h
    obtain ⟨j, header, requests, results, hd, hrest⟩ := v.ended hold
    exact ⟨j, header, requests, results, List.mem_append_left _ hd, hrest⟩

theorem Gathered.search (v : Gathered s record cs) (w : Journal s record) {i : Nat} {phase : Phase}
    (hl : s.loop = .round f n qs) (hq : qs[i]? = some q) (hr : t.rounds = s.rounds)
    (ht : t.loop = .round f n (qs.set i { q with phase })) (hm : m.search? = some i)
    (hg : Search.Gathers (qs.set i { q with phase })
      (ofRound n cs ++ (({ q with phase } : Search).result?.map (·, i)).toList)) :
    Gathered t (record ++ []) (cs ++ (t.completion? m).toList) := by
  have hc : t.completion? m =
      ({ q with phase } : Search).result?.map fun r => (n, r, i) := by
    rw [completion?_of_search ht hm, Search.result?_set hq, if_pos rfl]
  rw [List.append_nil, hc]
  refine ⟨?_, ?_, ?_⟩
  · intro c hcm
    rw [hr]
    rcases List.mem_append.1 hcm with hcm | hcm
    · exact v.known c hcm
    · obtain ⟨r, _, rfl⟩ := Option.map_eq_some_iff.1 (Option.mem_toList.1 hcm)
      exact (w.running hl).1
  · intro g k ps h
    rw [ht] at h
    cases h
    rw [Search.map_request_set hq, ofRound_append]
    refine ⟨(v.running hl).1, ?_⟩
    cases hp : ({ q with phase } : Search).result? with
    | none =>
      rw [hp] at hg
      exact hg
    | some r =>
      rw [hp] at hg
      show Search.Gathers _ (ofRound n cs ++ ofRound n [(n, r, i)])
      rw [ofRound_self]
      exact hg
  · intro k result h
    -- a round that has ended is not the open one, so its list stays as it was
    have hne : n ≠ k := by
      rintro rfl
      exact (w.running hl).2.2 result h
    have hk : ofRound k (cs ++
        (({ q with phase } : Search).result?.map fun r => (n, r, i)).toList) = ofRound k cs := by
      rw [ofRound_append]
      cases ({ q with phase } : Search).result? with
      | none => exact List.append_nil _
      | some r =>
        show ofRound k cs ++ ofRound k [(n, r, i)] = _
        rw [ofRound_of_ne hne, List.append_nil]
    rw [hk]
    exact v.ended h

theorem Gathered.close (v : Gathered s record cs) (hl : s.loop = .round f n qs)
    (hs : qs.mapM Search.result? = some rs) (hr : t.rounds = s.rounds)
    (ht : ∀ g k ps, t.loop ≠ .round g k ps)
    (he : ∀ k r, .ended k r ∈ es → k = n ∧ r = Round.settle rs) :
    Gathered t (record ++ es) (cs ++ []) := by
  rw [List.append_nil]
  refine ⟨fun c hc => hr ▸ v.known c hc, fun h => absurd h (ht _ _ _), ?_⟩
  intro k result h
  rcases List.mem_append.1 h with h | h
  · obtain ⟨j, header, requests, results, hd, hrest⟩ := v.ended h
    exact ⟨j, header, requests, results, List.mem_append_left _ hd, hrest⟩
  · obtain ⟨rfl, rfl⟩ := he k result h
    obtain ⟨hd, hg⟩ := v.running hl
    refine ⟨_, _, _, rs, List.mem_append_left _ hd, ?_, hg.perm hs, rfl⟩
    rw [List.length_map, (Search.mapM_result?_iff.1 hs).1]

theorem Gathered.step (v : Gathered s record cs) (w : Journal s record)
    (ht : Transition su s m t es) :
    Gathered t (record ++ es) (cs ++ (t.completion? m).toList) := by
  cases ht with
  | tick | poll | fire =>
    rw [completion?_of_none rfl]
    exact v.quiet rfl (fun _ _ _ => id) (by simp [ask])
  | keep =>
    rw [completion?_of_none rfl]
    exact v.quiet (rounds_resume ..) (fun _ _ _ => round_resume) (by simp)
  | fail =>
    rw [completion?_of_none rfl]
    exact v.quiet (rounds_resume ..) (fun _ _ _ => round_resume) (by simp)
  | @install _ _ clock q work _ _ =>
    rw [completion?_of_none rfl]
    refine v.quiet ((rounds_resume ..).trans (rounds_install ..)) ?_ ?_
    · intro f n qs h
      have hk := round_install (round_resume h)
      exact hk
    · intro n r he
      rcases mem_install he with he | he | he | he <;> cases he
  | enter | miss | finish | overrun | endPause =>
    exact v.quiet rfl (fun _ _ _ h => Loop.noConfusion h) (by simp)
  | @dispatch f mo header _ _ _ _ => exact v.dispatch { f.turnTo s.slot with header } mo
  | @reject i f n qs q e loop search waiting _ =>
    have hn : q.result? = none := by simp [Search.result?, waiting]
    exact v.search w loop search rfl rfl rfl ((v.running loop).2.end search hn (.error e))
  | @begin i f n qs q token _ _ loop search waiting _ _ =>
    have hn : q.result? = none := by simp [Search.result?, waiting]
    refine v.search w loop search rfl rfl rfl ?_
    show Search.Gathers _ (ofRound n cs ++ [])
    rw [List.append_nil]
    exact (v.running loop).2.begin search waiting token
  | @release i f n qs q token result loop search running =>
    have hn : q.result? = none := by simp [Search.result?, running]
    exact v.search w loop search rfl rfl rfl ((v.running loop).2.end search hn result)
  | pause loop ended settled =>
    exact v.close loop ended rfl (fun _ _ _ h => Loop.noConfusion h) (by simp [settled])
  | pass loop ended settled =>
    exact v.close loop ended rfl (fun _ _ _ h => Loop.noConfusion h) (by simp [settled])
  | misfit loop ended settled =>
    exact v.close loop ended rfl (fun _ _ _ h => Loop.noConfusion h) (by simp [settled])
  | submit loop ended settled =>
    exact v.close loop ended rfl (fun _ _ _ h => Loop.noConfusion h) (by simp [settled])
  | inquire | goOn =>
    exact v.quiet rfl (fun _ _ _ h => Loop.noConfusion h) (by simp [ask])
  | stop | leaveRun | startRun | endRun =>
    rw [completion?_of_none rfl]
    exact v.quiet rfl (fun _ _ _ => id) (by simp)

/-! ## the end of a round -/

theorem step_endRound (hl : s.loop = .round f n qs) :
    s.step su .endRound = (qs.mapM Search.result?).map fun rs =>
      s.endRound f n (Round.settle rs) := by
  simp only [step, hl]

theorem ended_mem_endRound {k : Nat} {r' : Except Error Candidate} :
    .ended k r' ∈ (s.endRound f n r).2 ↔ k = n ∧ r' = r := by
  unfold State.endRound
  split
  · simp
  · split
    · split <;> simp
    · simp

/-- searches that run can end in every order -/
theorem exists_steps (order : List (Except Error Candidate × Nat)) (hl : s.loop = .round f n qs)
    (hnodup : (order.map Prod.snd).Nodup)
    (hrun : ∀ c ∈ order, ∃ q token, qs[c.2]? = some q ∧ q.phase = .running token) :
    ∃ t ps, s.steps su (order.map fun c => .endSearch c.2 c.1) = some (t, []) ∧
      t.loop = .round f n ps ∧ ps.length = qs.length ∧
      (∀ c ∈ order, ps[c.2]?.bind Search.result? = some c.1) ∧
      ∀ k : Nat, k ∉ order.map Prod.snd → ps[k]? = qs[k]? := by
  induction order generalizing s qs with
  | nil => exact ⟨s, qs, rfl, hl, rfl, List.forall_mem_nil _, fun _ _ => rfl⟩
  | cons c order ih =>
    obtain ⟨q, token, hq, hr⟩ := hrun c List.mem_cons_self
    rw [List.map_cons, List.nodup_cons] at hnodup
    obtain ⟨u, hu, hul⟩ : ∃ u, s.step su (.endSearch c.2 c.1) = some (u, []) ∧
        u.loop = .round f n (qs.set c.2 { q with phase := .ended c.1 }) :=
      ⟨_, step_endSearch hl hq hr c.1, rfl⟩
    -- the others still run
    have hrest : ∀ d ∈ order, ∃ p token,
        (qs.set c.2 { q with phase := .ended c.1 })[d.2]? = some p ∧ p.phase = .running token := by
      intro d hd
      have hne : c.2 ≠ d.2 := fun h => hnodup.1 (h ▸ List.mem_map_of_mem hd)
      rw [List.getElem?_set_ne hne]
      exact hrun d (List.mem_cons_of_mem _ hd)
    obtain ⟨t, ps, ht, hloop, hlength, hended, hother⟩ := ih hul hnodup.2 hrest
    refine ⟨t, ps, ?_, hloop, ?_, ?_, ?_⟩
    · exact steps_cons_eq_some.2 ⟨u, _, _, hu, ht, rfl⟩
    · rw [hlength, List.length_set]
    · intro d hd
      rcases List.mem_cons.1 hd with rfl | hd
      · rw [hother _ hnodup.1, Search.result?_set hq, if_pos rfl]
        rfl
      · exact hended d hd
    · intro k hk
      rw [List.map_cons, List.mem_cons, not_or] at hk
      rw [hother k hk.2, List.getElem?_set_ne fun h => hk.1 h.symm]

/-- a round whose searches all run comes to the same in whatever order they end -/
theorem exists_endRound (su : Setup) (hl : s.loop = .round f n qs)
    (hrun : ∀ q ∈ qs, ∃ token, q.phase = .running token) (hlength : rs.length = qs.length)
    {order : List (Except Error Candidate × Nat)} (horder : order.Perm rs.zipIdx) :
    ∃ t es, s.steps su ((order.map fun c => .endSearch c.2 c.1) ++ [.endRound]) = some (t, es) ∧
      ∀ k r, .ended k r ∈ es ↔ k = n ∧ r = Round.settle rs := by
  have hmem (c : Except Error Candidate × Nat) : c ∈ order ↔ rs[c.2]? = some c.1 := by
    rw [horder.mem_iff, List.mem_zipIdx_iff_getElem?]
  have hnodup : (order.map Prod.snd).Nodup :=
    (horder.map Prod.snd).nodup_iff.2 (List.nodup_zipIdx_map_snd rs)
  have hrunning : ∀ c ∈ order, ∃ q token, qs[c.2]? = some q ∧ q.phase = .running token := by
    intro c hc
    have hlt : c.2 < qs.length := hlength ▸ (List.getElem?_eq_some_iff.1 ((hmem c).1 hc)).1
    obtain ⟨token, ht⟩ := hrun qs[c.2] (List.getElem_mem hlt)
    exact ⟨qs[c.2], token, List.getElem?_eq_getElem hlt, ht⟩
  obtain ⟨t, ps, hsteps, hloop, hps, hended, _⟩ := exists_steps order hl hnodup hrunning
  have hresults : ps.mapM Search.result? = some rs := by
    refine Search.mapM_result?_iff.2 ⟨hps.trans hlength.symm, fun i => ?_⟩
    by_cases hi : i < rs.length
    · have hr : rs[i]? = some rs[i] := List.getElem?_eq_getElem hi
      rw [hr]
      exact hended (rs[i], i) ((hmem _).2 hr)
    · rw [List.getElem?_eq_none (by omega), List.getElem?_eq_none (by omega)]
      rfl
  have hend : t.step su .endRound = some (t.endRound f n (Round.settle rs)) := by
    rw [step_endRound hloop, hresults]
    rfl
  refine ⟨_, _, steps_append hsteps (steps_cons_eq_some.2 ⟨_, _, _, hend, rfl, rfl⟩), ?_⟩
  intro k r
  rw [List.nil_append, List.append_nil]
  exact ended_mem_endRound

end State

namespace History

variable {su : Setup} {h : History su}

def completions (h : History su) : List (Nat × Except Error Candidate × Nat) :=
  State.fresh.completions su h.moves

/-- the searches of a round that have ended, in their order, by result and index -/
def completed (h : History su) (n : Nat) : List (Except Error Candidate × Nat) :=
  ofRound n h.completions

theorem completions_extend {m : Move} {t : State} {es : List Event}
    (hs : h.state.step su m = some (t, es)) :
    (h.extend m t es hs).completions = h.completions ++ (t.completion? m).toList := by
  show State.fresh.completions su (h.moves ++ [m]) = _
  rw [State.completions_append h.steps_eq]
  simp only [State.completions, hs, List.append_nil]
  rfl

theorem gathered (h : History su) : State.Gathered h.state h.record h.completions := by
  induction h using induction with
  | start => exact ⟨nofun, nofun, nofun⟩
  | extend h m t es hs ih =>
    rw [completions_extend]
    exact ih.step h.journal (State.transition_of_step hs)

/-- Each round asks for one search of its own header on the pinned device, with the parameters of the
first worker, or for one search on each device in their order, with the worker's own parameters, for
the target of its job and on its own header but for the tail of the extra nonce.  Whatever happens in
whatever order, the loop goes on exactly when all searches have ended, each of them once; and then
the round has come to what the results say by index alone, in whatever order they have come.  Every
order is possible. -/
theorem rounds_settle_by_index (h : History su) :
    (∀ n j header requests, .dispatched n j header requests ∈ h.record →
      h.Begins n j header requests ∧ su.plan.Issues header j.work.target requests) ∧
    (∀ f n qs, h.state.loop = .round f n qs →
      .dispatched n f.job f.header (qs.map (·.request)) ∈ h.record ∧
      ((h.completed n).map Prod.snd).Nodup ∧
      (∀ r i, (r, i) ∈ h.completed n ↔ qs[i]?.bind Search.result? = some r) ∧
      ((h.state.step su .endRound).isSome ↔ ∀ i < qs.length, ∃ r, (r, i) ∈ h.completed n) ∧
      ((∀ q ∈ qs, ∃ token, q.phase = .running token) →
        ∀ (results : List (Except Error Candidate)) (order : List (Except Error Candidate × Nat)),
          results.length = qs.length → order.Perm results.zipIdx →
          ∃ t es, h.state.steps su
            ((order.map fun c => .endSearch c.2 c.1) ++ [.endRound]) = some (t, es) ∧
            ∀ k r, .ended k r ∈ es ↔ k = n ∧ Round.Settles results r)) ∧
    ∀ n result, .ended n result ∈ h.record → ∃ j header requests results,
      .dispatched n j header requests ∈ h.record ∧ results.length = requests.length ∧
      (h.completed n).Perm results.zipIdx ∧ ∀ r, Round.Settles results r ↔ r = result := by
  refine ⟨?_, ?_, ?_⟩
  · intro n j header requests hd
    have hb : h.Begins n j header requests := begins_of_dispatched hd
    obtain ⟨_, m, _, _, _, _, _, _, _, hr, _⟩ := id hb
    refine ⟨hb, ?_⟩
    rw [hr]
    exact su.plan.issues_requests header j.work.target m.tails
  · intro f n qs hl
    obtain ⟨hd, hg⟩ := h.gathered.running hl
    refine ⟨hd, hg.once, hg.mem_iff, ?_, ?_⟩
    · rw [State.step_endRound hl, Option.isSome_map]
      exact hg.isSome_iff
    · intro hrun results order hlength horder
      obtain ⟨t, es, hs, he⟩ := State.exists_endRound su hl hrun hlength horder
      refine ⟨t, es, hs, fun k r => ?_⟩
      rw [he, ← Round.settle_eq_iff, eq_comm (a := r)]
  · intro n result he
    obtain ⟨j, header, requests, results, hd, hl, hp, hs⟩ := h.gathered.ended he
    refine ⟨j, header, requests, results, hd, hl, hp, fun r => ?_⟩
    rw [← Round.settle_eq_iff, hs, eq_comm]

end History

end HeaderMiner.Miner
