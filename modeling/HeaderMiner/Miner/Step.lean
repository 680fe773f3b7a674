import HeaderMiner.Miner.State
/-!
# What a miner does next

A step is what one party does between two waits: it is offered by the surroundings (`Move`), may be
impossible where the state does not wait for it, and otherwise has one outcome and leaves a record
(`Event`).  Taking on new work is one such step, so nobody sees it half done; the begin of a round
and the begins of its searches are steps of their own, so anything may come between them.
-/

namespace HeaderMiner.Miner

/-- what the node answers to a request for work -/
abbrev Response := Except Error (Option WorkAnswer)

/-- what the surroundings contribute to the begin of a round -/
structure Moment where
  /-- the local time in seconds -/
  clock : Int
  /-- the random tails of the extra nonces -/
  tails : Nat → Octets 12

inductive Move where
  /-- a request for work from outside, whose outcome is the caller's -/
  | tick
  /-- a request for work from outside, whose errors are contained -/
  | poll
  | answer (id : Nat) (response : Response) (clock : Int)
  /-- the loop looks at the slot for the first time -/
  | enter
  /-- the loop begins its next round, unless the miner has been stopped -/
  | turn (m : Moment)
  | beginSearch (index : Nat)
  | endSearch (index : Nat) (result : Except Error Candidate)
  /-- the loop resumes when all searches of its round have ended -/
  | endRound
  | endPause
  | judge (verdict : Except Error Verdict)
  | stop
  | startRun
  /-- the timer of the run fires -/
  | fire
  /-- the run sees that the miner has been stopped -/
  | leaveRun
  /-- the run sees that the loop has ended -/
  | endRun

/-- what a request for work has come to, when it has not failed -/
inductive Outcome where
  | noWork
  /-- work of the identity that the slot holds already; it is discarded -/
  | unchanged
  | newJob
deriving DecidableEq, Repr

inductive Event where
  | asked (id : Nat) (asker : Asker) (identity : Octets 32)
  | answered (id : Nat) (asker : Asker) (outcome : Except Error Outcome)
  | installed (job : Job)
  /-- a mining loop has been started -/
  | launched
  /-- a round has begun on a job -/
  | dispatched (number : Nat) (job : Job) (header : Header) (requests : List Request)
  | ended (number : Nat) (result : Except Error Candidate)
  /-- a block has been handed in that a round has found -/
  | submitted (number : Nat) (raw : List UInt8)
  | judged (number : Nat) (verdict : Except Error Verdict)
  /-- the backend has been told to stop all its searches -/
  | stoppedAll
  | returned (result : Except Error Unit)

namespace State

/-! ## stopping -/

def stopAll (s : State) : State := { s with tokens := s.registry.stopAll s.tokens }

def stop (s : State) : State := stopAll { s with tokens := s.tokens.cancel s.shutdown }

/-- stops the miner for an error; the first such error is kept -/
def fail (s : State) (e : Error) : State := stop { s with fatal := s.fatal.or (some e) }

/-! ## requests for work -/

/-- sends a request for work, which names the job in the slot -/
def ask (s : State) (asker : Asker) : State × List Event :=
  ({ s with
      inquiries := s.inquiries ++ [⟨s.nextInquiry, asker⟩]
      nextInquiry := s.nextInquiry + 1 },
    [.asked s.nextInquiry asker s.shownIdentity])

/-- starts a mining loop, unless there is one or the miner has been stopped -/
def launch (s : State) : State × List Event :=
  if s.isStopped || s.mining then (s, [])
  else ({ s with mining := true, loop := .started }, [.launched])

/-- takes on new work: the clock is set, the searches of the outgoing job are stopped, the job is
replaced and then cancelled -/
def install (s : State) (w : Work) (clock : Int) : State × List Event :=
  let s := stopAll { s with offset := (w.time.toNat : Int) - clock }
  let (token, tokens) := s.tokens.child s.shutdown
  let tokens := match s.slot with
    | some old => tokens.cancel old.token
    | none => tokens
  let job := ⟨w, token⟩
  let (s, launched) := launch { s with tokens, slot := some job }
  (s, [.stoppedAll, .installed job] ++ launched)

/-- the outcome of a request, and the work to take on if there is any -/
def judgeAnswer (su : Setup) (s : State) (response : Response) :
    Except Error (Outcome × Option Work) := do
  let some answer ← response | return (.noWork, none)
  let work ← answer.validate su.network
  if s.identity? = some work.identity then return (.unchanged, none)
  return (.newJob, some work)

def receive (su : Setup) (s : State) (response : Response) (clock : Int) :
    Except Error Outcome × State × List Event :=
  match s.judgeAnswer su response with
  | .error e => (.error e, s, [])
  | .ok (outcome, none) => (.ok outcome, s, [])
  | .ok (outcome, some work) => (.ok outcome, s.install work clock)

/-- contains an error: a fatal one stops the miner, any other is dropped -/
def contain (s : State) (asker : Asker) (outcome : Except Error Outcome) : State × List Event :=
  match asker, outcome with
  | .caller, _ | _, .ok _ => (s, [])
  | _, .error e => if e.isFatal then (s.fail e, [.stoppedAll]) else (s, [])

/-- lets the party that has asked go on -/
def resume (s : State) (asker : Asker) : State :=
  match asker, s.loop with
  | .timer, _ => { s with run := .waiting }
  | .loop, .polling f => { s with loop := .ready f }
  | _, _ => s

def answer (su : Setup) (s : State) (q : Inquiry) (response : Response) (clock : Int) :
    State × List Event :=
  let s := { s with inquiries := s.inquiries.filter fun i => i.id != q.id }
  let (outcome, s, taken) := s.receive su response clock
  let (s, contained) := s.contain q.asker outcome
  (s.resume q.asker, taken ++ .answered q.id q.asker outcome :: contained)

/-! ## rounds -/

def finish (s : State) : State := { s with loop := .finished, mining := false }

/-- the loop looks at the slot for the first time -/
def enter (s : State) : State :=
  match s.slot with
  | some job => { s with loop := .ready (.on job) }
  | none => s.finish

/-- begins a round on a focus whose header has moved on -/
def dispatch (su : Setup) (s : State) (f : Focus) (m : Moment) : State × List Event :=
  let requests := su.plan.requests f.header f.job.work.target m.tails
  let (searches, tokens) := Search.ofRequests f.job.token s.tokens requests
  ({ s with tokens, loop := .round f s.rounds searches, rounds := s.rounds + 1 },
    [.dispatched s.rounds f.job f.header requests])

/-- the next turn of the loop: it ends if the miner has been stopped, and otherwise turns to the job
in the slot, moves its header on and begins a round -/
def turn (su : Setup) (s : State) (f : Focus) (m : Moment) : State × List Event :=
  if s.isStopped then (s.finish, [])
  else
    let f := f.turnTo s.slot
    match f.header.advance (s.now m.clock) su.network with
    | .error v => ({ s with loop := .broken v }, [])
    | .ok (header, _) => s.dispatch su { f with header } m

/-- a search asks for its device -/
def beginSearch (su : Setup) (s : State) (q : Search) : Search × State :=
  match su.check q.request with
  | .error e => ({ q with phase := .ended (.error e) }, s)
  | .ok () =>
    match s.registry.start s.tokens q.request.device q.parent with
    | .error e => ({ q with phase := .ended (.error e) }, s)
    | .ok (token, registry, tokens) =>
      ({ q with phase := .running token }, { s with registry, tokens })

/-- a search that holds its device ends -/
def endSearch (s : State) (q : Search) (result : Except Error Candidate) : Search × State :=
  ({ q with phase := .ended result },
    { s with registry := s.registry.release q.request.device })

/-- whether a match on a focus is still worth handing in -/
def isCurrent (s : State) (f : Focus) : Bool :=
  !s.isSuperseded f.job && s.identity? == some f.identity

def endRound (s : State) (f : Focus) (number : Nat) (result : Except Error Candidate) :
    State × List Event :=
  match result with
  | .error _ => ({ s with loop := .pause f }, [.ended number result])
  | .ok c =>
    if c.isMatch && s.isCurrent f then
      match c.finalize f.header with
      | .error v => ({ s with loop := .broken v }, [.ended number result])
      | .ok block =>
        ({ s with loop := .submission f number, submitted := s.submitted + 1 },
          [.ended number result, .submitted number block.raw])
    else ({ s with loop := .ready f }, [.ended number result])

/-- the number of acceptances that a verdict adds -/
def acceptances : Except Error Verdict → Nat
  | .ok v => if v.accepted then 1 else 0
  | .error _ => 0

/-- the loop resumes after a submission, and asks for work if it still has the job it had -/
def judge (s : State) (f : Focus) (number : Nat) (verdict : Except Error Verdict) :
    State × List Event :=
  let s := { s with accepted := s.accepted + acceptances verdict }
  if s.identity? = some f.identity then
    let (s, asked) := ask { s with loop := .polling f } .loop
    (s, .judged number verdict :: asked)
  else ({ s with loop := .ready f }, [.judged number verdict])

/-! ## steps -/

/-- what a move comes to, if the state waits for it -/
def step (su : Setup) (s : State) : Move → Option (State × List Event)
  | .tick => some (s.ask .caller)
  | .poll => some (s.ask .poller)
  | .answer id response clock =>
    (s.inquiries.find? fun q => q.id == id).map fun q => s.answer su q response clock
  | .enter =>
    match s.loop with
    | .started => some (s.enter, [])
    | _ => none
  | .turn m =>
    match s.loop with
    | .ready f => some (s.turn su f m)
    | _ => none
  | .beginSearch i =>
    match s.loop with
    | .round f number searches =>
      match searches[i]? with
      | some q =>
        match q.phase with
        | .waiting =>
          let (q, s) := s.beginSearch su q
          some ({ s with loop := .round f number (searches.set i q) }, [])
        | _ => none
      | none => none
    | _ => none
  | .endSearch i result =>
    match s.loop with
    | .round f number searches =>
      match searches[i]? with
      | some q =>
        match q.phase with
        | .running _ =>
          let (q, s) := s.endSearch q result
          some ({ s with loop := .round f number (searches.set i q) }, [])
        | _ => none
      | none => none
    | _ => none
  | .endRound =>
    match s.loop with
    | .round f number searches =>
      (searches.mapM Search.result?).map fun results =>
        s.endRound f number (Round.settle results)
    | _ => none
  | .endPause =>
    match s.loop with
    | .pause f => some ({ s with loop := .ready f }, [])
    | _ => none
  | .judge verdict =>
    match s.loop with
    | .submission f number => some (s.judge f number verdict)
    | _ => none
  | .stop => some (s.stop, [.stoppedAll])
  | .startRun => if s.run = .off then some ({ s with run := .waiting }, []) else none
  | .fire => if s.run = .waiting then some (ask { s with run := .polling } .timer) else none
  | .leaveRun =>
    if s.run = .waiting ∧ s.isStopped then some ({ s.stop with run := .leaving }, [.stoppedAll])
    else none
  | .endRun =>
    if s.run = .leaving ∧ !s.loop.isAlive then
      some ({ s with run := .off, fatal := none },
        [.returned (match s.fatal with
          | some e => .error e
          | none => .ok ())])
    else none

/-! ## histories -/

def steps (su : Setup) (s : State) : List Move → Option (State × List Event)
  | [] => some (s, [])
  | m :: ms =>
    match s.step su m with
    | none => none
    | some (t, es) => (t.steps su ms).map fun (u, fs) => (u, es ++ fs)

variable {su : Setup}

theorem steps_cons_eq_some {s u : State} {m : Move} {ms : List Move} {gs : List Event} :
    s.steps su (m :: ms) = some (u, gs) ↔
      ∃ t es fs, s.step su m = some (t, es) ∧ t.steps su ms = some (u, fs) ∧ gs = es ++ fs := by
  cases h : s.step su m with
  | none => simp [steps, h]
  | some p =>
    obtain ⟨t, es⟩ := p
    simp only [steps, h, Option.map_eq_some_iff]
    constructor
    · rintro ⟨⟨v, fs⟩, hv, hp⟩
      obtain ⟨rfl, rfl⟩ := Prod.mk.inj hp
      exact ⟨t, es, fs, rfl, hv, rfl⟩
    · rintro ⟨_, _, fs, ht, hu, rfl⟩
      obtain ⟨rfl, rfl⟩ := Prod.mk.inj (Option.some.inj ht)
      exact ⟨(u, fs), hu, rfl⟩

theorem steps_append {s t u : State} {ms ns : List Move} {es fs : List Event}
    (h : s.steps su ms = some (t, es)) (k : t.steps su ns = some (u, fs)) :
    s.steps su (ms ++ ns) = some (u, es ++ fs) := by
  induction ms generalizing s es with
  | nil =>
    obtain ⟨rfl, rfl⟩ := Prod.mk.inj (Option.some.inj h)
    exact k
  | cons m ms ih =>
    obtain ⟨v, as, bs, hm, hs, rfl⟩ := steps_cons_eq_some.1 h
    rw [List.cons_append, steps_cons_eq_some, List.append_assoc]
    exact ⟨v, as, bs ++ fs, hm, ih hs, rfl⟩

end State

end HeaderMiner.Miner
