import HeaderMiner.Miner.Step
/-!
# The ways a step can go

`State.step` says by computation what a move comes to; here the same is said by cases.
`Transition su s m t es` holds when the move `m` takes `s` to `t` and leaves the record `es`, with
one constructor for each way in which it can go and with all that this way supposes.  Every step is
a transition (`transition_of_step`), so an invariant is proved by `cases` on a transition and no
other proof has to open `step`.

An answer to a request for work goes one of three ways: it changes nothing (`keep`), it is new work
that is taken on (`install`), or it is a fatal error that a poll contains (`fail`).
-/

namespace HeaderMiner.Miner

namespace State

/-- the state in which a request for work is no longer open -/
def without (s : State) (q : Inquiry) : State :=
  { s with inquiries := s.inquiries.filter fun i => i.id != q.id }

variable {su : Setup} {s : State}

/-! ## what an answer comes to -/

theorem judgeAnswer_without (s : State) (q : Inquiry) (response : Response) :
    (s.without q).judgeAnswer su response = s.judgeAnswer su response := rfl

theorem judgeAnswer_error (e : Error) : s.judgeAnswer su (.error e) = .error e := rfl

theorem judgeAnswer_none : s.judgeAnswer su (.ok none) = .ok (.noWork, none) := rfl

theorem judgeAnswer_of_error {a : WorkAnswer} {e : Error} (h : a.validate su.network = .error e) :
    s.judgeAnswer su (.ok (some a)) = .error e := by
  simp [judgeAnswer, bind, Except.bind, h]

theorem judgeAnswer_of_ok {a : WorkAnswer} {w : Work} (h : a.validate su.network = .ok w) :
    s.judgeAnswer su (.ok (some a)) =
      .ok (if s.identity? = some w.identity then (.unchanged, none) else (.newJob, some w)) := by
  by_cases hi : s.identity? = some w.identity <;>
    simp [judgeAnswer, bind, Except.bind, pure, Except.pure, h, hi]

/-- an answer is taken on exactly if it is valid work of another identity than the job's -/
theorem judgeAnswer_eq_some_iff {response : Response} {o : Outcome} {w : Work} :
    s.judgeAnswer su response = .ok (o, some w) ↔
      o = .newJob ∧ ∃ a, response = .ok (some a) ∧ a.validate su.network = .ok w ∧
        s.identity? ≠ some w.identity := by
  constructor
  · intro h
    match response with
    | .error e => rw [judgeAnswer_error] at h; cases h
    | .ok none => rw [judgeAnswer_none] at h; cases h
    | .ok (some a) =>
      cases hv : a.validate su.network with
      | error e => rw [judgeAnswer_of_error hv] at h; cases h
      | ok v =>
        rw [judgeAnswer_of_ok hv] at h
        by_cases hi : s.identity? = some v.identity
        · rw [if_pos hi] at h; cases h
        · rw [if_neg hi] at h
          cases h
          exact ⟨rfl, a, rfl, hv, hi⟩
  · rintro ⟨rfl, a, rfl, hv, hi⟩
    rw [judgeAnswer_of_ok hv, if_neg hi]

/-! ## transitions -/

/-- the ways in which a move can go -/
inductive Transition (su : Setup) (s : State) : Move → State → List Event → Prop where
  | tick : Transition su s .tick (s.ask .caller).1 (s.ask .caller).2
  | poll : Transition su s .poll (s.ask .poller).1 (s.ask .poller).2
  | keep {id response clock q o}
      (open_ : s.inquiries.find? (fun i => i.id == id) = some q)
      (judged : s.judgeAnswer su response = o.map fun o => (o, none))
      (mild : ∀ e, o = .error e → q.asker ≠ .caller → e.isFatal = false) :
      Transition su s (.answer id response clock) ((s.without q).resume q.asker)
        [.answered q.id q.asker o]
  | fail {id response clock q e}
      (open_ : s.inquiries.find? (fun i => i.id == id) = some q)
      (judged : s.judgeAnswer su response = .error e)
      (contained : q.asker ≠ .caller) (fatal : e.isFatal = true) :
      Transition su s (.answer id response clock) (((s.without q).fail e).resume q.asker)
        [.answered q.id q.asker (.error e), .stoppedAll]
  | install {id response clock q w}
      (open_ : s.inquiries.find? (fun i => i.id == id) = some q)
      (judged : s.judgeAnswer su response = .ok (.newJob, some w)) :
      Transition su s (.answer id response clock)
        (((s.without q).install w clock).1.resume q.asker)
        (((s.without q).install w clock).2 ++ [.answered q.id q.asker (.ok .newJob)])
  | enter {j} (loop : s.loop = .started) (slot : s.slot = some j) :
      Transition su s .enter { s with loop := .ready (.on j) } []
  | miss (loop : s.loop = .started) (slot : s.slot = none) : Transition su s .enter s.finish []
  | finish {f m} (loop : s.loop = .ready f) (stopped : s.isStopped = true) :
      Transition su s (.turn m) s.finish []
  | overrun {f m v} (loop : s.loop = .ready f) (running : s.isStopped = false)
      (advanced : (f.turnTo s.slot).header.advance (s.now m.clock) su.network = .error v) :
      Transition su s (.turn m) { s with loop := .broken v } []
  | dispatch {f m header moved} (loop : s.loop = .ready f) (running : s.isStopped = false)
      (advanced : (f.turnTo s.slot).header.advance (s.now m.clock) su.network
        = .ok (header, moved)) :
      Transition su s (.turn m) (s.dispatch su { f.turnTo s.slot with header } m).1
        (s.dispatch su { f.turnTo s.slot with header } m).2
  | reject {i f n qs q e} (loop : s.loop = .round f n qs) (search : qs[i]? = some q)
      (waiting : q.phase = .waiting)
      (rejected : su.check q.request = .error e ∨ su.check q.request = .ok () ∧
        s.registry.start s.tokens q.request.device q.parent = .error e) :
      Transition su s (.beginSearch i)
        { s with loop := .round f n (qs.set i { q with phase := .ended (.error e) }) } []
  | begin {i f n qs q token registry tokens} (loop : s.loop = .round f n qs)
      (search : qs[i]? = some q) (waiting : q.phase = .waiting)
      (checked : su.check q.request = .ok ())
      (started : s.registry.start s.tokens q.request.device q.parent
        = .ok (token, registry, tokens)) :
      Transition su s (.beginSearch i)
        { s with
          registry, tokens, loop := .round f n (qs.set i { q with phase := .running token }) } []
  | release {i f n qs q token result} (loop : s.loop = .round f n qs) (search : qs[i]? = some q)
      (running : q.phase = .running token) :
      Transition su s (.endSearch i result)
        { s with
          registry := s.registry.release q.request.device
          loop := .round f n (qs.set i { q with phase := .ended result }) } []
  | pause {f n qs rs e} (loop : s.loop = .round f n qs)
      (ended : qs.mapM Search.result? = some rs) (settled : Round.settle rs = .error e) :
      Transition su s .endRound { s with loop := .pause f } [.ended n (.error e)]
  | pass {f n qs rs c} (loop : s.loop = .round f n qs)
      (ended : qs.mapM Search.result? = some rs) (settled : Round.settle rs = .ok c)
      (worthless : (c.isMatch && s.isCurrent f) = false) :
      Transition su s .endRound { s with loop := .ready f } [.ended n (.ok c)]
  | misfit {f n qs rs c v} (loop : s.loop = .round f n qs)
      (ended : qs.mapM Search.result? = some rs) (settled : Round.settle rs = .ok c)
      (worthy : (c.isMatch && s.isCurrent f) = true) (finalized : c.finalize f.header = .error v) :
      Transition su s .endRound { s with loop := .broken v } [.ended n (.ok c)]
  | submit {f n qs rs c b} (loop : s.loop = .round f n qs)
      (ended : qs.mapM Search.result? = some rs) (settled : Round.settle rs = .ok c)
      (worthy : (c.isMatch && s.isCurrent f) = true) (finalized : c.finalize f.header = .ok b) :
      Transition su s .endRound { s with loop := .submission f n, submitted := s.submitted + 1 }
        [.ended n (.ok c), .submitted n b.raw]
  | endPause {f} (loop : s.loop = .pause f) :
      Transition su s .endPause { s with loop := .ready f } []
  | inquire {f n verdict} (loop : s.loop = .submission f n)
      (same : s.identity? = some f.identity) :
      Transition su s (.judge verdict)
        (ask { s with accepted := s.accepted + acceptances verdict, loop := .polling f } .loop).1
        (.judged n verdict :: (ask { s with
          accepted := s.accepted + acceptances verdict, loop := .polling f } .loop).2)
  | goOn {f n verdict} (loop : s.loop = .submission f n)
      (other : s.identity? ≠ some f.identity) :
      Transition su s (.judge verdict)
        { s with accepted := s.accepted + acceptances verdict, loop := .ready f }
        [.judged n verdict]
  | stop : Transition su s .stop s.stop [.stoppedAll]
  | startRun (off : s.run = .off) : Transition su s .startRun { s with run := .waiting } []
  | fire (waiting : s.run = .waiting) :
      Transition su s .fire (ask { s with run := .polling } .timer).1
        (ask { s with run := .polling } .timer).2
  | leaveRun (waiting : s.run = .waiting) (stopped : s.isStopped = true) :
      Transition su s .leaveRun { s.stop with run := .leaving } [.stoppedAll]
  | endRun (leaving : s.run = .leaving) (ended : s.loop.isAlive = false) :
      Transition su s .endRun { s with run := .off, fatal := none }
        [.returned (match s.fatal with
          | some e => .error e
          | none => .ok ())]

variable {t : State} {es : List Event}

theorem contain_of_mild {a : Asker} {o : Except Error Outcome}
    (h : ∀ e, o = .error e → a ≠ .caller → e.isFatal = false) : s.contain a o = (s, []) := by
  cases o with
  | ok o => cases a <;> rfl
  | error e => cases a <;> simp_all [contain]

theorem contain_of_fatal {a : Asker} {e : Error} (ha : a ≠ .caller) (he : e.isFatal = true) :
    s.contain a (.error e) = (s.fail e, [.stoppedAll]) := by
  cases a with
  | caller => exact absurd rfl ha
  | poller => simp [contain, he]
  | timer => simp [contain, he]
  | loop => simp [contain, he]

theorem receive_of_error {response : Response} {e : Error}
    (h : s.judgeAnswer su response = .error e) (clock : Int) :
    s.receive su response clock = (.error e, s, []) := by
  simp [receive, h]

theorem receive_of_none {response : Response} {o : Outcome}
    (h : s.judgeAnswer su response = .ok (o, none)) (clock : Int) :
    s.receive su response clock = (.ok o, s, []) := by
  simp [receive, h]

theorem receive_of_some {response : Response} {o : Outcome} {w : Work}
    (h : s.judgeAnswer su response = .ok (o, some w)) (clock : Int) :
    s.receive su response clock = (.ok o, s.install w clock) := by
  simp [receive, h]

/-- an answer in its parts: what it does to the slot, what a poll does then, and who goes on -/
theorem answer_eq {q : Inquiry} {response : Response} {clock : Int} {o : Except Error Outcome}
    {u v : State} {taken contained : List Event}
    (hr : (s.without q).receive su response clock = (o, u, taken))
    (hc : u.contain q.asker o = (v, contained)) :
    s.answer su q response clock
      = (v.resume q.asker, taken ++ .answered q.id q.asker o :: contained) := by
  unfold answer
  rw [show { s with inquiries := s.inquiries.filter fun i => i.id != q.id } = s.without q from rfl]
  simp only [hr, hc]

theorem transition_answer {id : Nat} {q : Inquiry}
    (hq : s.inquiries.find? (fun i => i.id == id) = some q) (response : Response) (clock : Int) :
    Transition su s (.answer id response clock) (s.answer su q response clock).1
      (s.answer su q response clock).2 := by
  have hw := @judgeAnswer_without su s q response
  cases hj : s.judgeAnswer su response with
  | error e =>
    have hr := receive_of_error (hw.trans hj) clock
    by_cases hc : q.asker ≠ .caller ∧ e.isFatal = true
    · rw [answer_eq hr (contain_of_fatal hc.1 hc.2)]
      exact .fail hq hj hc.1 hc.2
    · have hm : ∀ e', (.error e : Except Error Outcome) = .error e' → q.asker ≠ .caller →
          e'.isFatal = false := by
        rintro e' ⟨⟩ ha
        exact Bool.eq_false_iff.2 fun hf => hc ⟨ha, hf⟩
      rw [answer_eq hr (contain_of_mild hm)]
      exact .keep hq hj hm
  | ok p =>
    obtain ⟨o, _ | w⟩ := p
    · have hm : ∀ e, (.ok o : Except Error Outcome) = .error e → q.asker ≠ .caller →
          e.isFatal = false := fun e he => nomatch he
      rw [answer_eq (receive_of_none (hw.trans hj) clock) (contain_of_mild hm)]
      exact .keep hq hj hm
    · obtain ⟨rfl, _⟩ := judgeAnswer_eq_some_iff.1 hj
      have hm : ∀ e, (.ok .newJob : Except Error Outcome) = .error e → q.asker ≠ .caller →
          e.isFatal = false := fun e he => nomatch he
      rw [answer_eq (receive_of_some (hw.trans hj) clock) (contain_of_mild hm)]
      exact .install hq hj

theorem transition_enter (hl : s.loop = .started) : Transition su s .enter s.enter [] := by
  unfold State.enter
  split
  · next j hj => exact .enter hl hj
  · next hj => exact .miss hl hj

theorem transition_turn {f : Focus} (hl : s.loop = .ready f) (m : Moment) :
    Transition su s (.turn m) (s.turn su f m).1 (s.turn su f m).2 := by
  unfold turn
  split
  · next hs => exact .finish hl hs
  · next hs =>
    have hr : s.isStopped = false := by simpa using hs
    dsimp only
    split
    · next v hv => exact .overrun hl hr hv
    · next header moved hv => exact .dispatch hl hr hv

theorem transition_beginSearch {f : Focus} {i n : Nat} {qs : List Search} {q : Search}
    (hl : s.loop = .round f n qs) (hq : qs[i]? = some q) (hw : q.phase = .waiting) :
    Transition su s (.beginSearch i)
      { (s.beginSearch su q).2 with loop := .round f n (qs.set i (s.beginSearch su q).1) } [] := by
  unfold State.beginSearch
  split
  · next e he => exact .reject hl hq hw (.inl he)
  · next hc =>
    split
    · next e he => exact .reject hl hq hw (.inr ⟨hc, he⟩)
    · next token registry tokens hs => exact .begin hl hq hw hc hs

theorem transition_endRound {f : Focus} {n : Nat} {qs : List Search}
    {rs : List (Except Error Candidate)} (hl : s.loop = .round f n qs)
    (hr : qs.mapM Search.result? = some rs) :
    Transition su s .endRound (s.endRound f n (Round.settle rs)).1
      (s.endRound f n (Round.settle rs)).2 := by
  unfold State.endRound
  split
  · next e he => rw [he]; exact .pause hl hr he
  · next c hc =>
    rw [hc]
    split
    · next hw =>
      split
      · next v hv => exact .misfit hl hr hc hw hv
      · next b hb => exact .submit hl hr hc hw hb
    · next hw => exact .pass hl hr hc (Bool.eq_false_iff.2 hw)

theorem transition_judge {f : Focus} {n : Nat} (hl : s.loop = .submission f n)
    (verdict : Except Error Verdict) :
    Transition su s (.judge verdict) (s.judge f n verdict).1 (s.judge f n verdict).2 := by
  unfold State.judge
  dsimp only
  split
  · next hi => exact .inquire hl hi
  · next hi => exact .goOn hl hi

theorem transition_of_step {m : Move} {t : State} {es : List Event}
    (h : s.step su m = some (t, es)) : Transition su s m t es := by
  cases m with
  | tick => cases h; exact .tick
  | poll => cases h; exact .poll
  | answer id response clock =>
    obtain ⟨q, hq, ha⟩ := Option.map_eq_some_iff.1 h
    have hc : Transition su s _ _ _ := transition_answer hq response clock
    rwa [ha] at hc
  | enter =>
    simp only [step] at h
    split at h
    · next hl => cases h; exact transition_enter hl
    · cases h
  | turn m =>
    simp only [step] at h
    split at h
    · next f hl =>
      have hc : Transition su s _ _ _ := transition_turn hl m
      rwa [Option.some.inj h] at hc
    · cases h
  | beginSearch i =>
    simp only [step] at h
    split at h
    · next f n qs hl =>
      split at h
      · next q hq =>
        split at h
        · next hw => cases h; exact transition_beginSearch hl hq hw
        · cases h
      · cases h
    · cases h
  | endSearch i result =>
    simp only [step] at h
    split at h
    · next f n qs hl =>
      split at h
      · next q hq =>
        split at h
        · next token hr => cases h; exact .release hl hq hr
        · cases h
      · cases h
    · cases h
  | endRound =>
    simp only [step] at h
    split at h
    · next f n qs hl =>
      obtain ⟨rs, hr, he⟩ := Option.map_eq_some_iff.1 h
      have hc : Transition su s _ _ _ := transition_endRound hl hr
      rwa [he] at hc
    · cases h
  | endPause =>
    simp only [step] at h
    split at h
    · next f hl => cases h; exact .endPause hl
    · cases h
  | judge verdict =>
    simp only [step] at h
    split at h
    · next f n hl =>
      have hc : Transition su s _ _ _ := transition_judge hl verdict
      rwa [Option.some.inj h] at hc
    · cases h
  | stop => cases h; exact .stop
  | startRun =>
    simp only [step] at h
    split at h
    · next hr => cases h; exact .startRun hr
    · cases h
  | fire =>
    simp only [step] at h
    split at h
    · next hr => cases h; exact .fire hr
    · cases h
  | leaveRun =>
    simp only [step] at h
    split at h
    · next hr => cases h; exact .leaveRun hr.1 hr.2
    · cases h
  | endRun =>
    simp only [step] at h
    split at h
    · next hr => cases h; exact .endRun hr.1 (by simpa using hr.2)
    · cases h

end State

end HeaderMiner.Miner
