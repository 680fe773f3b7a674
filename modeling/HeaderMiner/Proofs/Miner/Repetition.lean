import HeaderMiner.Proofs.Miner.Coherence
import HeaderMiner.Proofs.Miner.Completion
import HeaderMiner.Proofs.Worker.Unhashed
/-!
# Rounds that repeat each other

The rounds on one job follow each other without a round on another job between them
(`turned_between`): a job that has left the slot does not come back to it.  So as long as time does
not roll, the headers of all rounds on a job differ in their extra nonces alone.  That is nothing
that is hashed, and on the CPU each round on a job finds again what the rounds before it have found
(`bare_eq_of_goes`).
-/

namespace HeaderMiner.Miner

/-- in a list without repetition nothing stands behind the last -/
theorem idxOf_le_of_getLast? {α : Type} [DecidableEq α] {l : List α} (hl : l.Nodup) {a b : α}
    (hb : l.getLast? = some b) (ha : a ∈ l) : l.idxOf a ≤ l.idxOf b := by
  obtain ⟨front, rfl⟩ := List.getLast?_eq_some_iff.1 hb
  have hnot : b ∉ front := fun h => (List.nodup_append.1 hl).2.2 b h b (List.mem_singleton.2 rfl) rfl
  rcases List.mem_append.1 ha with ha | ha
  · rw [List.idxOf_append_of_mem ha, List.idxOf_append_of_notMem hnot]
    have hlt : front.idxOf a < front.length := List.idxOf_lt_length_of_mem ha
    omega
  · rw [List.mem_singleton.1 ha]

theorem State.roundJob_step {su : Setup} {s t : State} {m : Move} {es : List Event}
    (ht : Transition su s m t es) :
    es.filterMap Event.roundJob? = [] ∨
      ∃ f, s.loop = .ready f ∧ es.filterMap Event.roundJob? = [s.slot.getD f.job] ∧
        es.filterMap Event.job? = [] := by
  cases ht with
  | @dispatch f mo header _ loop _ _ =>
    refine .inr ⟨f, loop, ?_, rfl⟩
    rw [← Focus.turnTo_job]
    rfl
  | install =>
    refine .inl (List.filterMap_eq_nil_iff.2 fun e he => ?_)
    rcases mem_install he with rfl | rfl | rfl | rfl <;> rfl
  | _ => exact .inl rfl

namespace History

variable {su : Setup} {h : History su} {n k l : Nat} {i j : Job}

/-! ## rounds on one job -/

/-- rounds are on jobs in the order in which these have been taken on -/
theorem pairwise_turned (h : History su) :
    h.turned.Pairwise fun i j => h.jobs.idxOf i ≤ h.jobs.idxOf j := by
  induction h using induction with
  | start => exact List.Pairwise.nil
  | extend h m t es hs ih =>
    rw [turned_extend, jobs_extend]
    rcases State.roundJob_step (State.transition_of_step hs) with hr | ⟨f, hl, hr, hj⟩
    · rw [hr, List.append_nil]
      refine ih.imp_of_mem fun hi hj hle => ?_
      rwa [List.idxOf_append_of_mem (mem_jobs_of_turned hi),
        List.idxOf_append_of_mem (mem_jobs_of_turned hj)]
    · -- the round is on the job in the slot, which is the last that has been taken on
      obtain ⟨j, hslot⟩ := h.slot_of_focus (by rw [hl]; rfl : h.state.loop.focus? = some f)
      rw [hr, hj, hslot, List.append_nil, List.pairwise_append]
      refine ⟨ih, List.pairwise_singleton .., fun i hi q hq => ?_⟩
      obtain rfl : q = j := List.mem_singleton.1 hq
      have hnodup : h.jobs.Nodup := List.Nodup.of_map Job.token h.ledger.nodup
      exact idxOf_le_of_getLast? hnodup (h.ledger.slot ▸ hslot) (mem_jobs_of_turned hi)

theorem idxOf_le_of_turned (hnk : n ≤ k) (hi : h.turned[n]? = some i) (hj : h.turned[k]? = some j) :
    h.jobs.idxOf i ≤ h.jobs.idxOf j := by
  obtain ⟨hn, rfl⟩ := List.getElem?_eq_some_iff.1 hi
  obtain ⟨hk, rfl⟩ := List.getElem?_eq_some_iff.1 hj
  rcases Nat.lt_or_eq_of_le hnk with hlt | rfl
  · exact List.pairwise_iff_getElem.1 h.pairwise_turned n k hn hk hlt
  · exact Nat.le_refl _

/-- between two rounds on one job there is none on another -/
theorem turned_between (hn : h.turned[n]? = some j) (hk : h.turned[k]? = some j) (hnl : n ≤ l)
    (hlk : l ≤ k) (hl : h.turned[l]? = some i) : i = j := by
  have h1 := idxOf_le_of_turned hnl hn hl
  have h2 := idxOf_le_of_turned hlk hl hk
  have hi : i ∈ h.jobs := mem_jobs_of_turned (List.mem_of_getElem? hl)
  exact (List.idxOf_inj hi).1 (Nat.le_antisymm h2 h1)

theorem turned_of_turns {r : Turn} (hr : h.turns[n]? = some r) : h.turned[n]? = some r.job := by
  rw [← map_job_turns, List.getElem?_map, hr]
  rfl

/-- where time does not roll, the headers of the rounds on a job are hashed alike -/
theorem alike_of_turns (hroll : su.network.rollsTime = false) {r r' : Turn} (hnk : n ≤ k)
    (hr : h.turns[n]? = some r) (hr' : h.turns[k]? = some r') (hj : r.job = r'.job) :
    r.header.Alike r'.header := by
  obtain ⟨d, rfl⟩ := Nat.exists_eq_add_of_le hnk
  have hn := turned_of_turns hr
  have hk := turned_of_turns hr'
  rw [← hj] at hk
  -- no round between the two takes the header of its job afresh
  have same : ∀ i ≤ d, ∀ q, h.turns[n + i]? = some q → q.job.identity = r.job.identity := by
    intro i hi q hq
    rw [turned_between hn hk (Nat.le_add_right n i) (by omega) (turned_of_turns hq)]
  obtain ⟨first, v⟩ := exists_onTrack hr
  obtain ⟨h₀, nows, more, _, hp, hp'⟩ := v.later hr hr' same
  have ht : r.header.time = r'.header.time :=
    (hp.kept hroll).1.trans (hp'.kept hroll).1.symm
  exact Header.alike_of_agrees (hp.agrees.trans hp'.agrees.symm) ht

variable {n' : Nat} {header header' : Header} {requests requests' : List Request}

theorem alike_of_dispatched (hroll : su.network.rollsTime = false)
    (hd : .dispatched n j header requests ∈ h.record)
    (hd' : .dispatched n' j header' requests' ∈ h.record) : header.Alike header' := by
  obtain ⟨now, hr⟩ := turn_of_dispatched hd
  obtain ⟨now', hr'⟩ := turn_of_dispatched hd'
  rcases Nat.le_total n n' with hle | hle
  · have v := alike_of_turns hroll hle hr hr' rfl
    exact v
  · have v := alike_of_turns hroll hle hr' hr rfl
    exact v.symm

theorem alike_requests (hroll : su.network.rollsTime = false)
    (hd : .dispatched n j header requests ∈ h.record)
    (hd' : .dispatched n' j header' requests' ∈ h.record) :
    requests.length = requests'.length ∧ ∀ (i : Nat) (q q' : Request), requests[i]? = some q →
      requests'[i]? = some q' → q.Alike q' := by
  have hh := alike_of_dispatched hroll hd hd'
  obtain ⟨_, m, _, _, _, _, _, _, _, rfl, _⟩ := begins_of_dispatched hd
  obtain ⟨_, m', _, _, _, _, _, _, _, rfl, _⟩ := begins_of_dispatched hd'
  refine ⟨?_, fun i q q' hq hq' => ?_⟩
  · rw [Round.Plan.length_requests, Round.Plan.length_requests]
  · rw [Round.Plan.eq_request hq, Round.Plan.eq_request hq']
    exact su.plan.alike_request hh j.work.target (m.tails i) (m'.tails i) i

/-! ## what the rounds find -/

variable {b : Backend} {seen : Nat → Nat → Bool}

/-- whether each search of a round that has ended has come back with what it comes to on a backend
if its looks at the token go as given -/
def Goes (h : History su) (b : Backend) (seen : Nat → Nat → Bool) (n : Nat)
    (requests : List Request) : Prop :=
  ∀ r i, (r, i) ∈ h.completed n → ∃ q, requests[i]? = some q ∧ b.Yields (seen i) q r

theorem bare_eq_of_goes (hb : b.type = .cpu) (hroll : su.network.rollsTime = false)
    (hd : .dispatched n j header requests ∈ h.record)
    (hd' : .dispatched n' j header' requests' ∈ h.record) (hg : h.Goes b seen n requests)
    (hg' : h.Goes b seen n' requests') {r r' : Except Error Candidate} {i : Nat}
    (hr : (r, i) ∈ h.completed n) (hr' : (r', i) ∈ h.completed n') :
    bareResult r = bareResult r' := by
  obtain ⟨q, hq, hy⟩ := hg r i hr
  obtain ⟨q', hq', hy'⟩ := hg' r' i hr'
  exact hy.bare_eq hb ((alike_requests hroll hd hd').2 i q q' hq hq') hy'

theorem exists_results (hd : .dispatched n j header requests ∈ h.record)
    {r : Except Error Candidate} (he : .ended n r ∈ h.record) :
    ∃ results, results.length = requests.length ∧ Round.settle results = r ∧
      ∀ i x, results[i]? = some x → (x, i) ∈ h.completed n := by
  obtain ⟨j', header', requests', results, hd', hl, hp, hs⟩ := h.gathered.ended he
  obtain ⟨_, _, rfl⟩ := h.journal.once hd hd'
  refine ⟨results, hl, hs, fun i x hx => ?_⟩
  exact hp.mem_iff.2 (List.mem_zipIdx_iff_getElem?.2 hx)

/-- two rounds on a job that go alike come to the same, but for the extra nonce -/
theorem bare_ended_eq (hb : b.type = .cpu) (hroll : su.network.rollsTime = false)
    (hd : .dispatched n j header requests ∈ h.record)
    (hd' : .dispatched n' j header' requests' ∈ h.record) (hg : h.Goes b seen n requests)
    (hg' : h.Goes b seen n' requests') {r r' : Except Error Candidate}
    (he : .ended n r ∈ h.record) (he' : .ended n' r' ∈ h.record) :
    bareResult r = bareResult r' := by
  obtain ⟨results, hl, rfl, hc⟩ := exists_results hd he
  obtain ⟨results', hl', rfl, hc'⟩ := exists_results hd' he'
  have hlength : results.length = results'.length := by
    rw [hl, hl', (alike_requests hroll hd hd').1]
  have hresults : results.map bareResult = results'.map bareResult := by
    refine List.ext_getElem (by rwa [List.length_map, List.length_map]) fun i hi hi' => ?_
    rw [List.length_map] at hi hi'
    rw [List.getElem_map, List.getElem_map]
    exact bare_eq_of_goes hb hroll hd hd' hg hg' (hc i _ (List.getElem?_eq_getElem hi))
      (hc' i _ (List.getElem?_eq_getElem hi'))
  rw [← Round.settle_bare, ← Round.settle_bare, hresults]

/-- Headers that are written alike in their first 128 bytes have the same hash and meet the same
targets, and a nonce search takes the same course on both: it hashes the same nonces, finds the same
and does as much, whenever it sees itself cancelled.  Neither a tail nor moving on without the time
changes these bytes.  So on the CPU, where time does not roll, any two rounds on one job are the same
to each worker: searches whose looks at the token go alike, as when nobody cancels them, come back
with the same but for the extra nonce, and so do the rounds. -/
theorem rounds_repeat (b : Backend) (network : Network) (params : Params) (device : Option Nat) :
    (∀ a c : Header, a.Alike c → a.powHash = c.powHash ∧
      (∀ target, a.verify target = c.verify target) ∧ Hasher.ofHeader a = Hasher.ofHeader c ∧
      ∀ target start range seen,
        Grind.run a target start range seen =
          ({ (Grind.run c target start range seen).1 with extraNonce := a.extraNonce },
            (Grind.run c target start range seen).2) ∧
        Sweep.run? a target start range seen =
          (Sweep.run? c target start range seen).map fun p =>
            ({ p.1 with extraNonce := a.extraNonce }, p.2)) ∧
    (∀ (a : Header) (tail : Octets 12), (a.setTail tail).Alike a) ∧
    (∀ (a c : Header) (now : Nat), a.advance now network = .ok (c, .extraNonce) → c.Alike a) ∧
    (b.type = .cpu → network.rollsTime = false →
      ∀ (h : History (.ofBackend network b params device)) n n' j header header' requests requests',
        .dispatched n j header requests ∈ h.record →
        .dispatched n' j header' requests' ∈ h.record →
        header.Alike header' ∧ requests.length = requests'.length ∧
        (∀ (i : Nat) q q', requests[i]? = some q → requests'[i]? = some q' → q.Alike q' ∧
          ∀ seen r r', b.Yields seen q r → b.Yields seen q' r' → bareResult r = bareResult r') ∧
        ∀ seen, h.Goes b seen n requests → h.Goes b seen n' requests' →
          (∀ i r r', (r, i) ∈ h.completed n → (r', i) ∈ h.completed n' →
            bareResult r = bareResult r') ∧
          ∀ r r', .ended n r ∈ h.record → .ended n' r' ∈ h.record →
            bareResult r = bareResult r') := by
  refine ⟨?_, Header.alike_setTail, fun _ _ _ => Header.alike_of_advance, ?_⟩
  · intro a c v
    refine ⟨v.powHash_eq, v.verify_eq, v.ofHeader_eq, fun target start range seen => ?_⟩
    exact ⟨Grind.run_alike v target start range seen, Sweep.run?_alike v target start range seen⟩
  · intro hb hroll h n n' j header header' requests requests' hd hd'
    obtain ⟨hlength, hrequests⟩ := alike_requests hroll hd hd'
    refine ⟨alike_of_dispatched hroll hd hd', hlength, ?_, ?_⟩
    · intro i q q' hq hq'
      have hr := hrequests i q q' hq hq'
      exact ⟨hr, fun seen r r' hy hy' => hy.bare_eq hb hr hy'⟩
    · intro seen hg hg'
      exact ⟨fun i r r' => bare_eq_of_goes hb hroll hd hd' hg hg',
        fun r r' => bare_ended_eq hb hroll hd hd' hg hg'⟩

end History

/-! ## two rounds that find one nonce -/

namespace Trial

/-- a CPU, which tries one nonce in a round -/
def grinder : Backend := { type := .cpu, devices := 1 }

/-- the header of the first round but for its tail, and that of the second -/
def first : Header := (work 1 0 255).header.incrementExtraNonce

def second : Header := first.incrementExtraNonce

def job : Job := ⟨work 1 0 255, [1, 0]⟩

def search (header : Header) (tail : Octets 12) : Request :=
  ⟨header.setTail tail, (work 1 0 255).target, .nonce { range := 1 }, 0⟩

def win (header : Header) (tail : Octets 12) : Candidate :=
  ⟨0, (header.setTail tail).extraNonce, none, true⟩

/-- a round has found a block, the node has not taken it, and the next round is on the same job -/
def repeated : History (.ofBackend .testnet grinder (.nonce { range := 1 }) none) :=
  (History.start _)
    |>.go .tick (by decide +kernel)
    |>.receive ⟨0, .caller⟩ (work 1 0 255) (by decide +kernel) (by decide +kernel)
    |>.go .enter (by decide +kernel)
    |>.go (.turn moment) (by decide +kernel)
    |>.go (.beginSearch 0) (by decide +kernel)
    |>.go (.endSearch 0 (.ok (win first (.replicate 12 0)))) (by decide +kernel)
    |>.go .endRound (by decide +kernel)
    |>.go (.judge (.error (.timeout "node"))) (by decide +kernel)
    |>.go (.answer 1 (.ok none) 0) (by decide +kernel)
    |>.go (.turn ⟨0, fun _ => .replicate 12 7⟩) (by decide +kernel)
    |>.go (.beginSearch 0) (by decide +kernel)
    |>.go (.endSearch 0 (.ok (win second (.replicate 12 7)))) (by decide +kernel)
    |>.go .endRound (by decide +kernel)

def begun? : Event → Option (Nat × Job × Header × List Request)
  | .dispatched n j header requests => some (n, j, header, requests)
  | _ => none

def ended? : Event → Option (Nat × Except Error Candidate)
  | .ended n r => some (n, r)
  | _ => none

theorem mem_of_begun {record : List Event} {n : Nat} {j : Job} {header : Header}
    {requests : List Request} (h : (n, j, header, requests) ∈ record.filterMap begun?) :
    .dispatched n j header requests ∈ record := by
  obtain ⟨e, he, hb⟩ := List.mem_filterMap.1 h
  cases e <;> cases hb
  exact he

theorem mem_of_ended {record : List Event} {n : Nat} {r : Except Error Candidate}
    (h : (n, r) ∈ record.filterMap ended?) : .ended n r ∈ record := by
  obtain ⟨e, he, hb⟩ := List.mem_filterMap.1 h
  cases e <;> cases hb
  exact he

theorem completed_go {su : Setup} {h : History su} {m : Move}
    (hs : (h.state.step su m).isSome = true) (n : Nat) :
    (h.go m hs).completed n =
      h.completed n ++ ofRound n ((h.go m hs).state.completion? m).toList := by
  show ofRound n (h.extend m _ _ _).completions = _
  rw [History.completions_extend, ofRound_append]
  rfl

theorem completed_receive {su : Setup} {h : History su} (q : Inquiry) (w : Work)
    (hq : (h.state.inquiries.find? fun i => i.id == q.id) = some q)
    (hi : h.state.identity? ≠ some w.identity) (n : Nat) :
    (h.receive q w hq hi).completed n = h.completed n := by
  show ofRound n (h.extend _ _ _ _).completions = _
  rw [History.completions_extend, State.completion?_of_none rfl, ofRound_append]
  exact List.append_nil _

/-- nobody cancels the two searches, and both find the first nonce -/
theorem goes_repeated :
    repeated.Goes grinder (fun _ _ => false) 0 [search first (.replicate 12 0)] ∧
      repeated.Goes grinder (fun _ _ => false) 1 [search second (.replicate 12 7)] := by
  have h0 : repeated.completed 0 = [(.ok (win first (.replicate 12 0)), 0)] := by
    simp only [repeated, completed_go, completed_receive]
    decide +kernel
  have h1 : repeated.completed 1 = [(.ok (win second (.replicate 12 7)), 0)] := by
    simp only [repeated, completed_go, completed_receive]
    decide +kernel
  have y0 : (grinder.mine {} (search first (.replicate 12 0)) [] fun _ _ =>
      { seen := fun _ => false }).1 = .ok (win first (.replicate 12 0)) := by decide +kernel
  have y1 : (grinder.mine {} (search second (.replicate 12 7)) [] fun _ _ =>
      { seen := fun _ => false }).1 = .ok (win second (.replicate 12 7)) := by decide +kernel
  constructor
  · intro r i hm
    rw [h0] at hm
    obtain ⟨rfl, rfl⟩ := Prod.mk.inj (List.mem_singleton.1 hm)
    exact ⟨search first (.replicate 12 0), rfl, {}, {}, [], .cancelled, y0⟩
  · intro r i hm
    rw [h1] at hm
    obtain ⟨rfl, rfl⟩ := Prod.mk.inj (List.mem_singleton.1 hm)
    exact ⟨search second (.replicate 12 7), rfl, {}, {}, [], .cancelled, y1⟩

theorem rounds_repeat_repeated :
    repeated.Goes grinder (fun _ _ => false) 0 [search first (.replicate 12 0)] ∧
    repeated.Goes grinder (fun _ _ => false) 1 [search second (.replicate 12 7)] ∧
    ∃ r r', .ended 0 r ∈ repeated.record ∧ .ended 1 r' ∈ repeated.record ∧ r ≠ r' ∧
      bareResult r = bareResult r' := by
  have hd : .dispatched 0 job first [search first (.replicate 12 0)] ∈ repeated.record :=
    mem_of_begun (by decide +kernel)
  have hd' : .dispatched 1 job second [search second (.replicate 12 7)] ∈ repeated.record :=
    mem_of_begun (by decide +kernel)
  have he : .ended 0 (.ok (win first (.replicate 12 0))) ∈ repeated.record :=
    mem_of_ended (by decide +kernel)
  have he' : .ended 1 (.ok (win second (.replicate 12 7))) ∈ repeated.record :=
    mem_of_ended (by decide +kernel)
  obtain ⟨hg, hg'⟩ := goes_repeated
  have h := History.rounds_repeat grinder .testnet (.nonce { range := 1 }) none
  obtain ⟨_, _, _, same⟩ := h.2.2.2 rfl rfl repeated 0 1 job first second _ _ hd hd'
  exact ⟨hg, hg', _, _, he, he', by decide +kernel, (same _ hg hg').2 _ _ he he'⟩

end Trial

end HeaderMiner.Miner
