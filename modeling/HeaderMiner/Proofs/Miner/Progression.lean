import HeaderMiner.Proofs.Header.Progression
import HeaderMiner.Proofs.Miner.Rounds
/-!
# The headers of one round after the other

The loop keeps a header of its own, takes it afresh where the slot shows another identity, and
otherwise moves it on from round to round, however the rounds end.  So the header of a round is what
the header of a job has become at the node's times since then (`stretch`), and as long as it is not
taken afresh no two rounds search the same time and extra nonce.
-/

namespace HeaderMiner.Miner

/-- a round as it begins -/
structure Turn where
  job : Job
  /-- what the node's clock shows -/
  now : Nat
  /-- the header that the loop has moved on to -/
  header : Header

def Event.turn? (now : Nat) : Event → Option Turn
  | .dispatched _ job header _ => some ⟨job, now, header⟩
  | _ => none

/-- what the node's clock shows at a move that looks at it -/
def State.clock (s : State) : Move → Nat
  | .turn m => s.now m.clock
  | _ => 0

/-- the rounds that begin in some moves -/
def State.turns (su : Setup) (s : State) : List Move → List Turn
  | [] => []
  | m :: ms =>
    match s.step su m with
    | none => []
    | some (t, es) => es.filterMap (Event.turn? (s.clock m)) ++ t.turns su ms

/-- the job whose header has been taken last, and the node's times since then, for a loop that has
found `first` and has begun some rounds -/
def stretch (first : Job) (turns : List Turn) : Job × List Nat :=
  turns.foldl
    (fun (b, nows) r => if r.job.identity = b.identity then (b, nows ++ [r.now]) else (r.job, [r.now]))
    (first, [])

/-! ## the last stretch -/

theorem stretch_concat (first : Job) (turns : List Turn) (r : Turn) :
    stretch first (turns ++ [r]) =
      if r.job.identity = (stretch first turns).1.identity then
        ((stretch first turns).1, (stretch first turns).2 ++ [r.now])
      else (r.job, [r.now]) := by
  rw [stretch, List.foldl_append]
  rfl

theorem identity_stretch_concat (first : Job) (turns : List Turn) (r : Turn) :
    (stretch first (turns ++ [r])).1.identity = r.job.identity := by
  rw [stretch_concat]
  split
  · next h => exact h.symm
  · rfl

theorem identity_stretch_take {first : Job} {turns : List Turn} {n : Nat} {r : Turn}
    (hr : turns[n]? = some r) :
    (stretch first (turns.take (n + 1))).1.identity = r.job.identity := by
  rw [List.take_add_one, hr]
  exact identity_stretch_concat first (turns.take n) r

theorem stretch_append (first : Job) (turns more : List Turn)
    (h : ∀ r ∈ more, r.job.identity = (stretch first turns).1.identity) :
    stretch first (turns ++ more) =
      ((stretch first turns).1, (stretch first turns).2 ++ more.map (·.now)) := by
  induction more generalizing turns with
  | nil =>
    rw [List.append_nil, List.map_nil, List.append_nil]
  | cons r more ih =>
    have hr := h r List.mem_cons_self
    have hs : stretch first (turns ++ [r]) =
        ((stretch first turns).1, (stretch first turns).2 ++ [r.now]) := by
      rw [stretch_concat, if_pos hr]
    have hm : ∀ q ∈ more, q.job.identity = (stretch first (turns ++ [r])).1.identity := by
      intro q hq
      rw [hs]
      exact h q (List.mem_cons_of_mem _ hq)
    rw [List.append_cons, ih (turns ++ [r]) hm, hs, List.map_cons, List.append_assoc]
    rfl

theorem Focus.turnTo_header (f : Focus) (slot : Option Job) :
    (f.turnTo slot).header =
      if (slot.getD f.job).identity = f.identity then f.header else (slot.getD f.job).work.header := by
  unfold turnTo
  dsimp only
  split <;> rfl

/-! ## rounds and the record -/

namespace State

variable {su : Setup} {s t : State} {m : Move} {es : List Event}

theorem focus_resume (s : State) (a : Asker) : (s.resume a).loop.focus? = s.loop.focus? :=
  loop_resume Loop.focus? (fun _ => rfl) s a

theorem focus_install {s : State} {w : Work} {clock : Int} {f : Focus}
    (h : (s.install w clock).1.loop.focus? = some f) : s.loop.focus? = some f := by
  rcases loop_install_eq_or s w clock with hl | hl
  · rw [← hl]
    exact h
  · rw [hl] at h
    cases h

theorem turns_append {ms : List Move} (h : s.steps su ms = some (t, es)) (ns : List Move) :
    s.turns su (ms ++ ns) = s.turns su ms ++ t.turns su ns := by
  induction ms generalizing s es with
  | nil =>
    obtain ⟨rfl, _⟩ := Prod.mk.inj (Option.some.inj h)
    rfl
  | cons m ms ih =>
    obtain ⟨u, fs, gs, hs, hu, _⟩ := steps_cons_eq_some.1 h
    simp only [turns, List.cons_append, hs, ih hu, List.append_assoc]

theorem turn_of_dispatched (ht : Transition su s m t es) {n : Nat} {j : Job} {header : Header}
    {rs : List Request} (hd : .dispatched n j header rs ∈ es) (now : Nat) :
    n = s.rounds ∧ es.filterMap (Event.turn? now) = [⟨j, now, header⟩] := by
  cases ht with
  | dispatch =>
    cases List.mem_singleton.1 hd
    exact ⟨rfl, rfl⟩
  | install => rcases mem_install hd with h | h | h | h <;> cases h
  | _ => simp [ask] at hd

end State

namespace History

variable {su : Setup} {h : History su}

def turns (h : History su) : List Turn := State.fresh.turns su h.moves

theorem turns_extend {m : Move} {t : State} {es : List Event}
    (hs : h.state.step su m = some (t, es)) :
    (h.extend m t es hs).turns = h.turns ++ es.filterMap (Event.turn? (h.state.clock m)) := by
  show State.fresh.turns su (h.moves ++ [m]) = _
  rw [State.turns_append h.steps_eq]
  simp only [State.turns, hs, List.append_nil]
  rfl

theorem turned_extend {m : Move} {t : State} {es : List Event}
    (hs : h.state.step su m = some (t, es)) :
    (h.extend m t es hs).turned = h.turned ++ es.filterMap Event.roundJob? :=
  List.filterMap_append ..

theorem map_job_turns (h : History su) : h.turns.map (·.job) = h.turned := by
  induction h using induction with
  | start => rfl
  | extend h m t es hs ih =>
    have hm : (es.filterMap (Event.turn? (h.state.clock m))).map (·.job) =
        es.filterMap Event.roundJob? := by
      rw [List.map_filterMap]
      congr 1
      funext e
      cases e <;> rfl
    rw [turns_extend, turned_extend, List.map_append, ih, hm]

theorem length_turns (h : History su) : h.turns.length = h.state.rounds := by
  have hl := congrArg List.length h.map_job_turns
  rw [List.length_map] at hl
  exact hl.trans h.journal.count

theorem turn_of_dispatched {n : Nat} {j : Job} {header : Header} {rs : List Request}
    (hd : .dispatched n j header rs ∈ h.record) :
    ∃ now, h.turns[n]? = some ⟨j, now, header⟩ := by
  induction h using induction with
  | start => cases hd
  | extend h m t es hs ih =>
    rw [turns_extend]
    rcases List.mem_append.1 hd with hd | hd
    · obtain ⟨now, hn⟩ := ih hd
      exact ⟨now, (List.getElem?_append_left (List.getElem?_eq_some_iff.1 hn).1).trans hn⟩
    · obtain ⟨hn, ht⟩ :=
        State.turn_of_dispatched (State.transition_of_step hs) hd (h.state.clock m)
      refine ⟨h.state.clock m, ?_⟩
      rw [ht, hn, ← h.length_turns, List.getElem?_concat_length]

/-! ## headers of rounds -/

/-- the loop has found a job when it has looked at the slot for the first time -/
def Enters (h : History su) (first : Job) : Prop :=
  ∃ g, h.Makes g .enter ∧ g.state.slot = some first

theorem Enters.extend {first : Job} (he : h.Enters first) {m : Move} {t : State} {es : List Event}
    (hs : h.state.step su m = some (t, es)) : (h.extend m t es hs).Enters first := by
  obtain ⟨g, hg, hj⟩ := he
  exact ⟨g, makes_extend.2 (.inl hg), hj⟩

/-- what a header has become by the rounds of a stretch -/
def Follows (network : Network) (first : Job) (turns : List Turn) (header : Header) : Prop :=
  Header.Progress network (stretch first turns).1.work.header (stretch first turns).2 header

theorem follows_concat {network : Network} {first : Job} {turns : List Turn} {f : Focus}
    {slot : Option Job} {now : Nat} {header : Header} {moved : Header.Advance}
    (v : Follows network first turns f.header)
    (hi : f.identity = (stretch first turns).1.identity)
    (ha : (f.turnTo slot).header.advance now network = .ok (header, moved)) :
    Follows network first (turns ++ [⟨slot.getD f.job, now, header⟩]) header := by
  rw [Focus.turnTo_header, hi] at ha
  unfold Follows
  rw [stretch_concat]
  -- the header is kept in the very case in which the stretch goes on
  split
  · next hs =>
    rw [if_pos hs] at ha
    exact v.advance ha
  · next hs =>
    rw [if_neg hs] at ha
    exact (Header.Progress.nil network _).advance ha

/-- the loop has found a job, and the headers of its rounds, and the one that it keeps, are what the
rounds of their stretches have made of them -/
structure OnTrack (h : History su) (first : Job) : Prop where
  entered : h.Enters first
  turn : ∀ n r, h.turns[n]? = some r → Follows su.network first (h.turns.take (n + 1)) r.header
  focus : ∀ f, h.state.loop.focus? = some f →
    f.identity = (stretch first h.turns).1.identity ∧ Follows su.network first h.turns f.header

variable {first : Job} {m : Move} {t : State} {es : List Event}

theorem OnTrack.quiet (v : h.OnTrack first) (hs : h.state.step su m = some (t, es))
    (he : es.filterMap (Event.turn? (h.state.clock m)) = [])
    (hl : ∀ f, t.loop.focus? = some f → h.state.loop.focus? = some f) :
    (h.extend m t es hs).OnTrack first := by
  have hturns : (h.extend m t es hs).turns = h.turns := by rw [turns_extend, he, List.append_nil]
  refine ⟨v.entered.extend hs, ?_, ?_⟩
  · rw [hturns]
    exact v.turn
  · intro f hf
    rw [hturns]
    exact v.focus f (hl f hf)

theorem OnTrack.dispatch (v : h.OnTrack first) {f : Focus} {mo : Moment} {header : Header}
    {moved : Header.Advance} (loop : h.state.loop = .ready f)
    (advanced : (f.turnTo h.state.slot).header.advance (h.state.now mo.clock) su.network
      = .ok (header, moved))
    (hs : h.state.step su (.turn mo) = some (t, es))
    (he : es.filterMap (Event.turn? (h.state.now mo.clock)) =
      [⟨(f.turnTo h.state.slot).job, h.state.now mo.clock, header⟩])
    (hl : t.loop.focus? = some { f.turnTo h.state.slot with header }) :
    (h.extend _ t es hs).OnTrack first := by
  let r : Turn := ⟨h.state.slot.getD f.job, h.state.now mo.clock, header⟩
  have hturns : (h.extend _ t es hs).turns = h.turns ++ [r] := by
    rw [Focus.turnTo_job] at he
    exact (turns_extend hs).trans (congrArg (h.turns ++ ·) he)
  obtain ⟨hi, hf⟩ := v.focus f (by rw [loop]; rfl)
  have hnew : Follows su.network first (h.turns ++ [r]) header := follows_concat hf hi advanced
  refine ⟨v.entered.extend hs, ?_, ?_⟩
  · intro n q hq
    rw [hturns] at hq ⊢
    by_cases hn : n < h.turns.length
    · rw [List.getElem?_append_left hn] at hq
      rw [List.take_append_of_le_length hn]
      exact v.turn n q hq
    · have hl : n < (h.turns ++ [r]).length := (List.getElem?_eq_some_iff.1 hq).1
      rw [List.length_append, List.length_singleton] at hl
      obtain rfl : n = h.turns.length := by omega
      rw [List.getElem?_concat_length] at hq
      cases hq
      rw [List.take_of_length_le (by simp)]
      exact hnew
  · intro g hg
    obtain rfl := Option.some.inj (hl.symm.trans hg)
    rw [hturns, identity_stretch_concat]
    exact ⟨Focus.turnTo_identity, hnew⟩

/-- the loop has not looked at the slot yet, or it is on its track -/
theorem onTrack (h : History su) :
    h.turns = [] ∧ h.state.loop.focus? = none ∨ ∃ first, h.OnTrack first := by
  induction h using induction with
  | start => exact .inl ⟨rfl, rfl⟩
  | extend h m t es hs ih =>
    have quiet (he : es.filterMap (Event.turn? (h.state.clock m)) = [])
        (hl : ∀ f, t.loop.focus? = some f → h.state.loop.focus? = some f) :
        (h.extend m t es hs).turns = [] ∧ t.loop.focus? = none ∨
          ∃ first, (h.extend m t es hs).OnTrack first := by
      rcases ih with ⟨hn, hf⟩ | ⟨first, v⟩
      · refine .inl ⟨by rw [turns_extend, he, hn]; rfl, ?_⟩
        cases ht : t.loop.focus? with
        | none => rfl
        | some f =>
          rw [hl f ht] at hf
          cases hf
      · exact .inr ⟨first, v.quiet hs he hl⟩
    cases State.transition_of_step hs with
    | tick | poll | stop | startRun | fire | leaveRun | endRun => exact quiet rfl fun _ => id
    | @keep _ _ _ q _ _ _ _ =>
      refine quiet rfl fun f hf => ?_
      rwa [State.focus_resume] at hf
    | @fail _ _ _ q e _ _ _ _ =>
      refine quiet rfl fun f hf => ?_
      rwa [State.focus_resume] at hf
    | @install _ _ clock q w _ _ =>
      refine quiet ?_ fun f hf => ?_
      · rw [List.filterMap_eq_nil_iff]
        intro e he
        rcases State.mem_install he with rfl | rfl | rfl | rfl <;> rfl
      · rw [State.focus_resume] at hf
        exact State.focus_install (s := h.state.without q) hf
    | @enter j loop slot =>
      have hn : h.turns = [] := by
        rw [← List.length_eq_zero_iff, length_turns]
        exact h.lifetime.unused (.inr loop)
      have hturns : (h.extend _ _ _ hs).turns = [] := by
        rw [turns_extend, hn]
        rfl
      refine .inr ⟨j, ⟨h, makes_extend.2 (.inr ⟨rfl, rfl⟩), slot⟩, ?_, ?_⟩
      · rw [hturns]
        exact nofun
      · intro f hf
        cases hf
        rw [hturns]
        exact ⟨rfl, Header.Progress.nil su.network j.work.header⟩
    | miss | finish | overrun | misfit => exact quiet rfl nofun
    | dispatch loop _ advanced =>
      rcases ih with ⟨_, hf⟩ | ⟨first, v⟩
      · rw [loop] at hf
        cases hf
      · exact .inr ⟨first, v.dispatch loop advanced hs rfl rfl⟩
    | reject loop | begin loop | release loop | pause loop | pass loop | submit loop | endPause loop
    | inquire loop | goOn loop =>
      refine quiet rfl fun f hf => ?_
      rw [loop]
      exact hf

theorem exists_onTrack {n : Nat} {r : Turn} (hr : h.turns[n]? = some r) :
    ∃ first, h.OnTrack first := by
  refine h.onTrack.resolve_left fun ⟨hn, _⟩ => ?_
  rw [hn] at hr
  cases hr

theorem OnTrack.later (v : h.OnTrack first) {n k : Nat} {r r' : Turn} (hr : h.turns[n]? = some r)
    (hr' : h.turns[n + k]? = some r')
    (same : ∀ i ≤ k, ∀ q, h.turns[n + i]? = some q → q.job.identity = r.job.identity) :
    ∃ h₀ nows more, more.length = k ∧ Header.Progress su.network h₀ nows r.header ∧
      Header.Progress su.network h₀ (nows ++ more) r'.header := by
  have hb : (stretch first (h.turns.take (n + 1))).1.identity = r.job.identity :=
    identity_stretch_take hr
  have hm : ∀ q ∈ (h.turns.drop (n + 1)).take k,
      q.job.identity = (stretch first (h.turns.take (n + 1))).1.identity := by
    intro q hq
    obtain ⟨i, hi⟩ := List.mem_iff_getElem?.1 hq
    have hik : i < k := by
      have hl := (List.getElem?_eq_some_iff.1 hi).1
      rw [List.length_take] at hl
      omega
    rw [List.getElem?_take_of_lt hik, List.getElem?_drop] at hi
    rw [hb]
    refine same (i + 1) hik q ?_
    rw [← hi]
    congr 1
    omega
  have hlen : ((h.turns.drop (n + 1)).take k).length = k := by
    have hl := (List.getElem?_eq_some_iff.1 hr').1
    rw [List.length_take, List.length_drop]
    omega
  have h2 := v.turn (n + k) r' hr'
  unfold Follows at h2
  rw [show n + k + 1 = n + 1 + k by omega, List.take_add, stretch_append _ _ _ hm] at h2
  exact ⟨_, _, _, by rw [List.length_map]; exact hlen, v.turn n r hr, h2⟩

/-- The header of each round is what the header of a job has become at the node's times in its
stretch of rounds on one identity.  So from one round to a later one on the same track the time
does not go back, and unless the counter has gone round, time or extra nonce has changed.  A loop
that may go on does begin a round, if the node's time fits 48 bits where it is written down. -/
theorem headers_progress (h : History su) :
    (∀ n j header requests, .dispatched n j header requests ∈ h.record →
      ∃ now, h.turns[n]? = some ⟨j, now, header⟩) ∧
    h.turns.length = h.state.rounds ∧
    (∀ n r, h.turns[n]? = some r → ∃ first, h.Enters first ∧ ∃ b nows,
      stretch first (h.turns.take (n + 1)) = (b, nows) ∧
        Header.Progress su.network b.work.header nows r.header) ∧
    (∀ n k r r', h.turns[n]? = some r → h.turns[n + k]? = some r' →
      (∀ i ≤ k, ∀ q, h.turns[n + i]? = some q → q.job.identity = r.job.identity) →
      r.header.time.seconds ≤ r'.header.time.seconds ∧
        (0 < k → k < 2 ^ 192 →
          (r.header.time, r.header.extraNonce) ≠ (r'.header.time, r'.header.extraNonce))) ∧
    ∀ f m, h.state.loop = .ready f → h.state.isStopped = false →
      (su.network.rollsTime = true → h.state.now m.clock ≤ maxTime) →
      ∃ t es j header requests, h.state.step su (.turn m) = some (t, es) ∧
        .dispatched h.state.rounds j header requests ∈ es := by
  refine ⟨fun _ _ _ _ => turn_of_dispatched, h.length_turns, ?_, ?_, ?_⟩
  · intro n r hr
    obtain ⟨first, v⟩ := exists_onTrack hr
    exact ⟨first, v.entered, _, _, rfl, v.turn n r hr⟩
  · intro n k r r' hr hr' same
    obtain ⟨first, v⟩ := exists_onTrack hr
    obtain ⟨h₀, nows, more, hk, hp, hp'⟩ := v.later hr hr' same
    refine ⟨hp.time_le hp', fun hpos hlt => hp.ne hp' ?_ (hk ▸ hlt)⟩
    rintro rfl
    rw [← hk] at hpos
    exact absurd hpos (Nat.lt_irrefl 0)
  · intro f m hl hs hn
    obtain ⟨header, moved, ha⟩ :=
      Header.exists_advance (f.turnTo h.state.slot).header hn
    have hd : h.state.step su (.turn m) =
        some (h.state.dispatch su { f.turnTo h.state.slot with header } m) := by
      simp only [State.step, hl, State.turn, hs, ha]
      rfl
    exact ⟨_, _, _, _, _, hd, List.mem_singleton.2 rfl⟩

end History

end HeaderMiner.Miner
