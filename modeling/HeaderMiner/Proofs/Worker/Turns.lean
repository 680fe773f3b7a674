import HeaderMiner.Proofs.Worker.CycleProofs
import HeaderMiner.Proofs.Worker.SolverAnswers
import HeaderMiner.Proofs.Worker.Sweeping
import HeaderMiner.Worker.Service
/-!
# Searches by turns come to the same

A search that takes its turns one by one comes to what the search in one go comes to that sees the same
at its looks.  For nonces this is carried from turn to turn by what is still to come: the batches so far
and a search from where they have led are the whole search (`Grinder.Resumes`).

A search whose next look sees it cancelled adds no more, so what a search has added at any time is what
it would have added if it had been cancelled then (`Call.Legal.exists_run`).  Thus it has counted each
nonce that it has hashed, whether it is over or not (`Call.Legal.exists_sweep`).
-/

namespace HeaderMiner

/-! ## nonce searches -/

namespace Grind

variable {h : Header} {target : Target} {start range : UInt32} {seen : Nat → Bool}

theorem run_eq (h : Header) (target : Target) (start range : UInt32) (seen : Nat → Bool) :
    run h target start range seen =
      (candidate h (outcome h target start range seen).nonce,
        ⟨(outcome h target start range seen).hashed,
          if (outcome h target start range seen).nonce.isSome then 1 else 0⟩) := by
  cases hm : (outcome h target start range seen).nonce with
  | some m => exact run_eq_of_found hm
  | none => exact run_eq_of_none hm

end Grind

namespace Grinder

variable {g g' : Grinder} {r : Request} {p : NonceParams} {seen : Nat → Bool} {o : Grind.Outcome}
  {k hashed batches : Nat} {b : Bool}

/-- what is left of a search in one go from look `k` on -/
def rest (g : Grinder) (seen : Nat → Bool) (k batches : Nat) : Grind.Outcome :=
  Grind.search g.target seen g.limit g.hasher k g.nonce batches

theorem rest_of_over (hb : g.limit ≤ g.nonce + batches * Grind.batchSize)
    (ht : g.turn (seen k) = (o, none)) : g.rest seen k batches = o := by
  unfold turn at ht
  unfold rest
  cases batches with
  | zero =>
    rw [if_pos (by omega)] at ht
    cases ht
    rfl
  | succ batches =>
    rw [Grind.search]
    split at ht
    · next hle =>
      rw [if_pos hle]
      cases ht
      rfl
    · next hle =>
      rw [if_neg hle]
      split at ht
      · next hs =>
        rw [if_pos hs]
        cases ht
        rfl
      · next hs =>
        rw [if_neg hs]
        dsimp only at ht ⊢
        generalize Grind.scan g.target g.hasher g.nonce _ = scanned at ht ⊢
        obtain ⟨_ | m, hasher⟩ := scanned
        · cases ht
        · cases ht
          rfl

theorem rest_of_turn (seen : Nat → Bool) (hb : g.limit ≤ g.nonce + batches * Grind.batchSize)
    (ht : g.turn (seen k) = (o, some g')) :
    seen k = false ∧ o.nonce = none ∧ ∃ n, batches = n + 1 ∧
      g'.limit ≤ g'.nonce + n * Grind.batchSize ∧
      g.rest seen k batches =
        ⟨(g'.rest seen (k + 1) n).nonce, o.hashed + (g'.rest seen (k + 1) n).hashed⟩ := by
  unfold turn at ht
  unfold rest
  split at ht
  · cases ht
  next hle =>
  split at ht
  · cases ht
  next hs =>
  dsimp only at ht
  split at ht
  · cases ht
  next hasher hscan =>
  cases ht
  cases batches with
  | zero => omega
  | succ n =>
    refine ⟨Bool.eq_false_iff.2 hs, rfl, n, rfl, ?_, ?_⟩
    · show g.limit ≤ g.nonce + min Grind.batchSize (g.limit - g.nonce) + n * Grind.batchSize
      rw [Nat.succ_mul] at hb
      omega
    · rw [Grind.search, if_neg hle, if_neg hs]
      dsimp only
      rw [hscan]

/-- what a search has done in `k` turns, none of which has seen it cancelled, and what is left of it
are the whole search -/
def Resumes (r : Request) (p : NonceParams) (k hashed : Nat) (g : Grinder) : Prop :=
  ∃ batches, g.limit ≤ g.nonce + batches * Grind.batchSize ∧
    ∀ seen, (∀ i < k, seen i = false) → Grind.outcome r.header r.target p.nonce p.range seen =
      ⟨(g.rest seen k batches).nonce, hashed + (g.rest seen k batches).hashed⟩

theorem rest_ofRequest (r : Request) (p : NonceParams) (seen : Nat → Bool) :
    (ofRequest r p).rest seen 0 Grind.maxBatches =
      Grind.outcome r.header r.target p.nonce p.range seen := rfl

theorem resumes_ofRequest (r : Request) (p : NonceParams) : Resumes r p 0 0 (ofRequest r p) := by
  have henough : (ofRequest r p).limit ≤
      (ofRequest r p).nonce + Grind.maxBatches * Grind.batchSize :=
    Grind.limit_le_maxBatches p.nonce p.range
  refine ⟨Grind.maxBatches, henough, fun seen _ => ?_⟩
  rw [rest_ofRequest, Nat.zero_add]

theorem Resumes.turn (h : Resumes r p k hashed g) (ht : g.turn b = (o, some g')) :
    b = false ∧ o.nonce = none ∧ Resumes r p (k + 1) (hashed + o.hashed) g' := by
  -- the turn is the same for all looks that see what it has seen
  obtain ⟨batches, hb, hrun⟩ := h
  have next (seen : Nat → Bool) (hk : seen k = b) := rest_of_turn seen hb (hk.symm ▸ ht)
  obtain ⟨rfl, ho, n, rfl, hn, -⟩ := next (fun _ => b) rfl
  refine ⟨rfl, ho, n, hn, fun seen hs => ?_⟩
  obtain ⟨-, -, n', he, -, hrest⟩ := next seen (hs k (Nat.lt_succ_self k))
  obtain rfl : n = n' := Nat.succ.inj he
  rw [hrun seen fun i hi => hs i (Nat.lt_succ_of_lt hi), hrest, Nat.add_assoc]

/-- a search that is over has come to what it would have come to in one go -/
theorem Resumes.outcome_eq (h : Resumes r p k hashed g) (ht : g.turn b = (o, none))
    (hs : ∀ i < k, seen i = false) (hk : seen k = b) :
    Grind.outcome r.header r.target p.nonce p.range seen = ⟨o.nonce, hashed + o.hashed⟩ := by
  obtain ⟨batches, hb, hrun⟩ := h
  rw [hrun seen hs, rest_of_over hb (hk.symm ▸ ht)]

theorem turn_true (g : Grinder) : g.turn true = (⟨none, 0⟩, none) := by
  unfold turn
  split
  · rfl
  · rw [if_pos rfl]

end Grinder

/-! ## searches by solvers -/

namespace Solver

/-- a search is decided by a solver that has ended with success and has written blanks or an answer -/
def Ending.IsAnswered (e : Ending) : Prop :=
  ∃ stdout stderr, e = .solver (.exited (some 0) stdout stderr) ∧
    (Text.IsBlank (Utf8.decodeLossy stdout).toList ∨
      ∃ nonce proof, IsAnswer (Utf8.decodeLossy stdout).toList nonce proof)

theorem exists_parseOutput_iff {stdout : List UInt8} :
    (∃ answer, parseOutput stdout = .ok answer) ↔
      Text.IsBlank (Utf8.decodeLossy stdout).toList ∨
        ∃ nonce proof, IsAnswer (Utf8.decodeLossy stdout).toList nonce proof := by
  rw [← Text.words_eq_nil_iff, ← parseOutput_eq_none_iff]
  simp only [isAnswer_iff, ← parseOutput_eq_some_iff]
  constructor
  · rintro ⟨_ | ⟨nonce, proof⟩, h⟩
    · exact .inl h
    · exact .inr ⟨nonce, proof, h⟩
  · rintro (h | ⟨nonce, proof, h⟩)
    · exact ⟨_, h⟩
    · exact ⟨_, h⟩

theorem isAnswered_iff {run : Run} :
    (Ending.solver run).IsAnswered ↔ ∃ answer, run.output.bind parseOutput = .ok answer := by
  constructor
  · rintro ⟨stdout, stderr, he, h⟩
    cases he
    exact exists_parseOutput_iff.2 h
  · rintro ⟨answer, h⟩
    obtain ⟨stdout, stderr, rfl, h⟩ := exists_output h
    exact ⟨stdout, stderr, rfl, exists_parseOutput_iff.1 ⟨answer, h⟩⟩

theorem added_of_conclude {r : Request} {e : Ending} {result : Except Error Candidate}
    {stats : Stats} (h : conclude r e = (result, stats)) :
    (stats.hashes = 1 ↔ e.IsAnswered) ∧ stats.hashes ≤ 1 ∧
      (stats.found = 1 ↔ ∃ c, result = .ok c ∧ c.isMatch = true) ∧ stats.found ≤ 1 := by
  cases e with
  | cancelled =>
    cases h
    refine ⟨iff_of_false nofun ?_, Nat.zero_le _, iff_of_false nofun ?_, Nat.zero_le _⟩
    · rintro ⟨_, _, he, _⟩
      cases he
    · rintro ⟨c, hc, hm⟩
      cases hc
      cases hm
  | solver run =>
    rw [isAnswered_iff]
    unfold conclude at h
    dsimp only at h
    cases ha : run.output.bind parseOutput with
    | error e =>
      rw [ha] at h
      cases h
      exact ⟨iff_of_false nofun nofun, Nat.zero_le _, iff_of_false nofun nofun, Nat.zero_le _⟩
    | ok answer =>
      rw [ha] at h
      cases h
      refine ⟨iff_of_true rfl ⟨answer, rfl⟩, Nat.le_refl _, ?_⟩
      cases hm : (candidate r answer).isMatch with
      | true => exact ⟨iff_of_true rfl ⟨_, rfl, hm⟩, Nat.le_refl _⟩
      | false =>
        refine ⟨iff_of_false nofun ?_, Nat.zero_le _⟩
        rintro ⟨c, hc, ht⟩
        cases hc
        cases hm.symm.trans ht

end Solver

/-! ## calls -/

namespace Call

/-- a sequence of looks sees what has been seen -/
def Agrees (looks : List Bool) (seen : Nat → Bool) : Prop :=
  ∀ i b, looks[i]? = some b → seen i = b

theorem agrees_getD (looks : List Bool) (b : Bool) : Agrees looks fun i => looks.getD i b := by
  intro i c hi
  show looks.getD i b = c
  rw [List.getD_eq_getElem?_getD, hi]
  rfl

theorem agrees_concat {looks : List Bool} {b : Bool} {seen : Nat → Bool}
    (h : Agrees (looks ++ [b]) seen) : Agrees looks seen ∧ seen looks.length = b := by
  refine ⟨fun i c hi => h i c ?_, h _ _ List.getElem?_concat_length⟩
  rwa [List.getElem?_append_left (List.getElem?_eq_some_iff.1 hi).1]

theorem Agrees.eq_false {looks : List Bool} {seen : Nat → Bool} (h : Agrees looks seen)
    (unseen : ∀ b ∈ looks, b = false) : ∀ i < looks.length, seen i = false := by
  intro i hi
  rw [h i _ (List.getElem?_eq_getElem hi)]
  exact unseen _ (List.getElem_mem hi)

/-- how a search stands that has begun and has taken its turns -/
inductive Legal (type : BackendType) : Call → Prop
  | grinding {r : Request} {job : Registry.Job} {b : Bool} {p : NonceParams} {g : Grinder}
      {looks : List Bool} {hashed : Nat} (cpu : type = .cpu) (params : r.params = .nonce p)
      (unseen : ∀ s ∈ looks, s = false) (resumes : g.Resumes r p looks.length hashed) :
      Legal type ⟨r, job, b, .grinding g, looks, none, ⟨hashed, 0⟩⟩
  | ground {r : Request} {job : Registry.Job} {b : Bool} {p : NonceParams} {c : Candidate}
      {looks : List Bool} {added : Stats} (cpu : type = .cpu) (params : r.params = .nonce p)
      (run_eq : ∀ seen, Agrees looks seen →
        Grind.run r.header r.target p.nonce p.range seen = (c, added)) :
      Legal type ⟨r, job, b, .decided (.ok c), looks, none, added⟩
  | solving {r : Request} {job : Registry.Job} {b : Bool} (external : type = .external) :
      Legal type ⟨r, job, b, .solving, [], none, {}⟩
  | solved {r : Request} {job : Registry.Job} {b cancelled : Bool} {l : Solver.Look}
      {e : Solver.Ending} {result : Except Error Candidate} {added : Stats}
      (external : type = .external) (sees : l.ending? cancelled = some e)
      (conclude_eq : Solver.conclude r e = (result, added)) :
      Legal type ⟨r, job, b, .decided result, [], some (l, e), added⟩

variable {type : BackendType} {c c' : Call} {stats : Stats} {seen : Bool} {l : Solver.Look}
  {result : Except Error Candidate}

/-- how a search goes: as it has been seen so far, and cancelled from there -/
def course (c : Call) : Backend.Course :=
  { seen := (c.looks.getD · true), ending := (c.last.map (·.2)).getD .cancelled }

def IsOver (c : Call) : Prop := ∃ result, c.stage = .decided result

theorem legal_start {r : Request} (h : type = .cpu → r.params.kind = .nonce) (job : Registry.Job)
    (b : Bool) : (start type r job b).Legal type ∧ ¬ (start type r job b).IsOver := by
  cases type with
  | external => exact ⟨.solving rfl, nofun⟩
  | cpu =>
    have hk := h rfl
    unfold start
    cases hp : r.params with
    | nonce p => exact ⟨.grinding rfl hp nofun (Grinder.resumes_ofRequest r p), nofun⟩
    | cycle p =>
      rw [hp] at hk
      cases hk

/-- what a turn changes of a search -/
structure Turn (c : Call) (seen : Bool) (stats : Stats) (c' : Call) : Prop where
  open_ : ¬ c.IsOver
  request : c'.request = c.request
  job : c'.job = c.job
  stillborn : c'.stillborn = c.stillborn
  added : c'.added = c.added.add stats
  looks : ∀ b ∈ c'.looks, b ∈ c.looks ∨ b = seen
  last : ∀ l e, c'.last = some (l, e) → c.last = some (l, e) ∨ l.ending? seen = some e

theorem turn_of_batch? (h : c.batch? seen = some (stats, c')) : c.Turn seen stats c' := by
  unfold batch? at h
  split at h
  · next g hg =>
    cases h
    refine ⟨?_, rfl, rfl, rfl, rfl, fun b hb => ?_, fun l e he => .inl he⟩
    · rintro ⟨result, hr⟩
      cases hg.symm.trans hr
    · rcases List.mem_append.1 hb with hb | hb
      · exact .inl hb
      · exact .inr (List.mem_singleton.1 hb)
  · cases h

theorem turn_of_look? (h : c.look? l seen = some (stats, c')) : c.Turn seen stats c' := by
  unfold look? at h
  split at h
  · next e hg he =>
    cases h
    refine ⟨?_, rfl, rfl, rfl, rfl, fun b hb => .inl hb, ?_⟩
    · rintro ⟨result, hr⟩
      cases hg.symm.trans hr
    · rintro _ _ ⟨⟩
      exact .inr he
  · cases h

namespace Legal

theorem batch (h : c.Legal type) (ht : c.batch? seen = some (stats, c')) : c'.Legal type := by
  cases h with
  | ground | solving | solved => cases ht
  | @grinding r job b p g looks hashed cpu params unseen resumes =>
    unfold batch? at ht
    dsimp only at ht
    cases hturn : g.turn seen with
    | mk o rest =>
    rw [hturn] at ht
    cases rest with
    | some g' =>
      obtain ⟨rfl, ho, hnext⟩ := resumes.turn hturn
      rw [ho] at ht
      cases ht
      refine .grinding cpu params (fun s hs => ?_) ?_
      · rcases List.mem_append.1 hs with hs | hs
        · exact unseen s hs
        · exact List.mem_singleton.1 hs
      · rw [List.length_append]
        exact hnext
    | none =>
      cases ht
      refine .ground cpu params fun sees hs => ?_
      obtain ⟨hbefore, hlook⟩ := agrees_concat hs
      rw [Grind.run_eq, resumes.outcome_eq hturn (hbefore.eq_false unseen) hlook]
      simp [Stats.add]

theorem look (h : c.Legal type) (ht : c.look? l seen = some (stats, c')) : c'.Legal type := by
  cases h with
  | ground | grinding | solved => cases ht
  | solving external =>
    unfold look? at ht
    dsimp only at ht
    split at ht
    · next e _ he =>
      cases ht
      exact .solved external he (by rw [Stats.zero_add])
    · cases ht

/-- what a nonce search has added is what it would have added if it had been cancelled now, and if it
is over then it has come to the same -/
theorem exists_run (h : c.Legal .cpu) :
    ∃ p candidate, c.request.params = .nonce p ∧
      Grind.run c.request.header c.request.target p.nonce p.range (c.looks.getD · true) =
        (candidate, c.added) ∧
      ∀ result, c.stage = .decided result → result = .ok candidate := by
  cases h with
  | solving external | solved external => cases external
  | @ground r job b p candidate looks added cpu params run_eq =>
    refine ⟨p, candidate, params, run_eq _ (agrees_getD looks true), ?_⟩
    rintro _ ⟨⟩
    rfl
  | @grinding r job b p g looks hashed cpu params unseen resumes =>
    -- the next look is taken to see the search cancelled, and that turn adds nothing
    refine ⟨p, .noneOn r.header, params, ?_, nofun⟩
    have hbefore := (agrees_getD looks true).eq_false unseen
    have hnow : looks.getD looks.length true = true := by
      rw [List.getD_eq_getElem?_getD, List.getElem?_eq_none (Nat.le_refl _)]
      rfl
    rw [Grind.run_eq, resumes.outcome_eq g.turn_true hbefore hnow]
    rfl

/-- a nonce search has counted each of the nonces that it has hashed -/
theorem exists_sweep (h : c.Legal .cpu) :
    ∃ p candidate sweep, c.request.params = .nonce p ∧
      Sweep.run? c.request.header c.request.target p.nonce p.range (c.looks.getD · true) =
        some (candidate, sweep) ∧
      c.added.hashes = sweep.tried.length ∧
      ∀ result, c.stage = .decided result → result = .ok candidate := by
  obtain ⟨p, candidate, params, hrun, hover⟩ := h.exists_run
  obtain ⟨sweep, hsweep, hlead⟩ := Sweep.run?_eq c.request.header c.request.target p.nonce p.range
    (c.looks.getD · true)
  have hadded := congrArg (fun x => x.2.hashes) ((Grind.run_eq ..).symm.trans hrun)
  rw [hrun] at hsweep
  refine ⟨p, candidate, sweep, params, hsweep, ?_, hover⟩
  rw [hlead.tried, ← hadded]
  simp

theorem hashes_le (h : c.Legal type) : c.added.hashes ≤ 2 ^ 32 := by
  cases type with
  | external =>
    cases h with
    | grinding cpu | ground cpu => cases cpu
    | solving => exact Nat.zero_le _
    | solved _ _ conclude_eq =>
      exact Nat.le_trans (Solver.added_of_conclude conclude_eq).2.1 (by decide)
  | cpu =>
    obtain ⟨p, candidate, -, hrun, -⟩ := h.exists_run
    have hadded := congrArg (fun x => x.2.hashes) ((Grind.run_eq ..).symm.trans hrun)
    have hend := (Grind.ends_outcome c.request.header c.request.target p.nonce p.range
      (c.looks.getD · true)).hashed_le (Nat.le_of_lt (Grind.lt_limit p.nonce p.range))
    have hlimit := Grind.limit_le p.nonce p.range
    rw [← hadded]
    dsimp only
    omega

theorem conclude_eq (h : c.Legal type) (hs : c.stage = .decided result) {b : Backend}
    (hb : b.type = type) (token : Token) :
    b.conclude ⟨c.request, token⟩ c.course = (result, c.added) := by
  cases type with
  | cpu =>
    obtain ⟨p, candidate, params, hrun, hover⟩ := h.exists_run
    obtain rfl := hover result hs
    unfold Backend.conclude
    rw [hb, params]
    exact congrArg (fun x : Candidate × Stats => (Except.ok x.1, x.2)) hrun
  | external =>
    cases h with
    | grinding cpu | ground cpu => cases cpu
    | solving => cases hs
    | solved _ _ conclude_eq =>
      cases hs
      unfold Backend.conclude
      rw [hb]
      exact conclude_eq

/-! ## what a search by a solver adds -/

theorem added_of_open (h : c.Legal .external) (ho : ¬ c.IsOver) : c.added = {} := by
  cases h with
  | grinding cpu | ground cpu => cases cpu
  | solving => rfl
  | solved => exact absurd ⟨_, rfl⟩ ho

/-- what has decided a search by a solver -/
theorem exists_last (h : c.Legal .external) (hs : c.stage = .decided result) :
    ∃ l e cancelled, c.last = some (l, e) ∧ l.ending? cancelled = some e ∧
      Solver.conclude c.request e = (result, c.added) := by
  cases h with
  | ground cpu => cases cpu
  | grinding | solving => cases hs
  | solved _ sees conclude_eq =>
    cases hs
    exact ⟨_, _, _, rfl, sees, conclude_eq⟩

end Legal

end Call

end HeaderMiner
