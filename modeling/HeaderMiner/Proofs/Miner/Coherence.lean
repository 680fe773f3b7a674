import HeaderMiner.Proofs.Miner.Progression
import HeaderMiner.Proofs.Miner.Submission
import HeaderMiner.Proofs.Miner.Trial
/-!
# Whose header a round is on

A round takes target and token from the job in the slot, and its header from a copy that the loop
keeps.  The copy is taken afresh only when the identity of the job is another than at the turn
before, so the header of a round is that of the first job in the last stretch of turns that saw one
identity (`origin`), moved on.  This is the round's own job as long as jobs of one identity have one
header; a job that takes the place of two others within a round, and carries the identity of the
first, is searched on the header of that one.
-/

namespace HeaderMiner.Miner

/-- the job whose header a loop works on that has found `first` and has then turned to some jobs
one after the other -/
def origin (first : Job) (seen : List Job) : Job :=
  seen.foldl (fun b j => if j.identity = b.identity then b else j) first

theorem origin_concat (first : Job) (seen : List Job) (j : Job) :
    origin first (seen ++ [j]) =
      if j.identity = (origin first seen).identity then origin first seen else j := by
  rw [origin, List.foldl_append]
  rfl

theorem origin_mem (first : Job) (seen : List Job) : origin first seen ∈ first :: seen := by
  induction seen using List.reverseRecOn with
  | nil => exact List.mem_cons_self
  | append_singleton seen j ih =>
    rw [origin_concat]
    split
    · rcases List.mem_cons.1 ih with h | h
      · rw [h]
        exact List.mem_cons_self
      · exact List.mem_cons_of_mem _ (List.mem_append_left _ h)
    · exact List.mem_cons_of_mem _ (List.mem_append_right _ (List.mem_singleton.2 rfl))

/-- it is the job whose header has been taken last -/
theorem fst_stretch (first : Job) (turns : List Turn) :
    (stretch first turns).1 = origin first (turns.map (·.job)) := by
  induction turns using List.reverseRecOn with
  | nil => rfl
  | append_singleton turns r ih =>
    rw [stretch_concat, List.map_append, List.map_singleton, origin_concat, ← ih]
    split <;> rfl

def Event.isFirstRound : Event → Bool
  | .dispatched n _ _ _ => n == 0
  | _ => false

/-- whether an event begins a round on a header that is not its job's -/
def Event.isAstray : Event → Bool
  | .dispatched _ j header _ => !decide (header.Agrees j.work.header)
  | _ => false

namespace History

variable {su : Setup} {h : History su}

/-- the header of a round is that of the first job in the last stretch of rounds on one identity -/
theorem agrees_of_dispatched {n : Nat} {j : Job} {header : Header} {requests : List Request}
    (hd : .dispatched n j header requests ∈ h.record) :
    ∃ first, h.Enters first ∧ header.Agrees (origin first (h.turned.take (n + 1))).work.header ∧
      (origin first (h.turned.take (n + 1))).identity = j.identity := by
  obtain ⟨now, hr⟩ := turn_of_dispatched hd
  obtain ⟨first, v⟩ := exists_onTrack hr
  have hb : (stretch first (h.turns.take (n + 1))).1 = origin first (h.turned.take (n + 1)) := by
    rw [fst_stretch, List.map_take, map_job_turns]
  refine ⟨first, v.entered, ?_⟩
  rw [← hb]
  exact ⟨(v.turn n _ hr).agrees, identity_stretch_take hr⟩

/-- a job that a round has been on has been taken on before -/
theorem mem_jobs_of_dispatched {n : Nat} {j : Job} {header : Header} {requests : List Request}
    (hd : .dispatched n j header requests ∈ h.record) : j ∈ h.jobs := by
  obtain ⟨g, m, t, es, qs, hg, _, _, hj, _⟩ := begins_of_dispatched hd
  exact (jobs_of_earlier (earlier_of_makes hg)).subset (g.ledger.mem_of_slot hj)

theorem mem_jobs_of_turned {j : Job} (hj : j ∈ h.turned) : j ∈ h.jobs := by
  obtain ⟨e, he, hr⟩ := List.mem_filterMap.1 hj
  cases e <;> cases hr
  exact mem_jobs_of_dispatched he

theorem Enters.mem_jobs {first : Job} (he : h.Enters first) : first ∈ h.jobs := by
  obtain ⟨g, hg, hj⟩ := he
  exact (jobs_of_earlier (earlier_of_makes hg)).subset (g.ledger.mem_of_slot hj)

/-- Each round takes target and token from one job, the one in the slot.  Its header comes from a
job of the same identity, the first of the last stretch of rounds on that identity; so it is the
header of the round's own job, but for time and extra nonce, exactly if the two jobs' headers
agree. -/
theorem dispatched_agrees_iff (h : History su) :
    ∀ n j header requests, .dispatched n j header requests ∈ h.record →
      j ∈ h.jobs ∧ h.Begins n j header requests ∧
      ∃ first, h.Enters first ∧ ∃ b ∈ h.jobs, b = origin first (h.turned.take (n + 1)) ∧
        b.identity = j.identity ∧ header.Agrees b.work.header ∧
        (header.Agrees j.work.header ↔ b.work.header.Agrees j.work.header) := by
  intro n j header requests hd
  obtain ⟨first, hent, ha, hi⟩ := agrees_of_dispatched hd
  have hb : origin first (h.turned.take (n + 1)) ∈ h.jobs := by
    rcases List.mem_cons.1 (origin_mem first (h.turned.take (n + 1))) with hf | hf
    · rw [hf]
      exact hent.mem_jobs
    · exact mem_jobs_of_turned (List.mem_of_mem_take hf)
  exact ⟨mem_jobs_of_dispatched hd, begins_of_dispatched hd, first, hent, _, hb, rfl, hi, ha,
    ha.symm.trans, ha.trans⟩

theorem dispatched_agrees_overtaken : ∃ j header requests,
    .dispatched 0 j header requests ∈ Trial.overtaken.record ∧
    Trial.overtaken.Begins 0 j header requests ∧
    ∃ b ∈ Trial.overtaken.jobs, b.identity = j.identity ∧
      (header.Agrees j.work.header ↔ b.work.header.Agrees j.work.header) := by
  have hany : Trial.overtaken.record.any Event.isFirstRound = true := by decide +kernel
  obtain ⟨e, he, hn⟩ := List.any_eq_true.1 hany
  cases e with
  | dispatched n j header requests =>
    obtain rfl : n = 0 := by simpa [Event.isFirstRound] using hn
    obtain ⟨_, hb, first, _, b, hm, _, hi, _, hiff⟩ :=
      dispatched_agrees_iff Trial.overtaken 0 j header requests he
    exact ⟨j, header, requests, he, hb, b, hm, hi, hiff⟩
  | _ => cases hn

/-- A round can be on a header that is not its job's: when the search of `Trial.overtaken` ends and
the loop turns to the last job, it goes on with the header of the first. -/
theorem not_always_agrees : ¬ ∀ (su : Setup) (h : History su) (n : Nat) (j : Job) (header : Header)
    (requests : List Request), .dispatched n j header requests ∈ h.record →
      header.Agrees j.work.header := by
  intro always
  let h : History Trial.setup := Trial.overtaken
    |>.go (.endSearch 0 (.ok .none)) (by decide +kernel)
    |>.go .endRound (by decide +kernel)
    |>.go (.turn Trial.moment) (by decide +kernel)
  have hany : h.record.any Event.isAstray = true := by decide +kernel
  obtain ⟨e, he, hne⟩ := List.any_eq_true.1 hany
  cases e with
  | dispatched n j header requests =>
    have ha : header.Agrees j.work.header := always Trial.setup h n j header requests he
    simp [Event.isAstray, ha] at hne
  | _ => cases hne

end History

end HeaderMiner.Miner
