import HeaderMiner.Miner.Step
/-!
# Rehearsals

A rehearsal plays a miner against surroundings that follow a script: what the node answers to
requests for work and to blocks, and what the searches come back with.  After each cue it goes on
until nothing can move any more: the loop takes every step that it can take, pauses pass at once,
and a search that the script has no answer for waits until it is cancelled.  Only in a run whose
timer has a period does a pause take its time, and the timer may fire in the middle of it.  The
local time that headers are given stands still.
-/

namespace HeaderMiner.Miner

/-- what a search comes back with, given what it was asked -/
abbrev Reply := Request → Except Error Candidate

structure Script where
  /-- what the node answers once, in order -/
  queue : List Response := []
  /-- what it answers when the queue is empty -/
  steady : Response := .ok none
  /-- a request that finds the queue empty stops the miner -/
  stopsWhenEmpty : Bool := false
  verdict : Except Error Verdict := .ok ⟨true, ""⟩
  /-- the answer to a request from outside that comes before each verdict -/
  meanwhile : Option Response := none
  /-- what the searches come back with, in the order in which they begin -/
  replies : List Reply := []
  /-- what a search without a reply comes back with when it is cancelled -/
  late : Reply := fun _ => .ok .none

structure Rehearsal where
  setup : Setup
  /-- the random tails of a round, by its number -/
  tails : Nat → Nat → Octets 12
  state : State := .fresh
  script : Script := {}
  /-- all that has happened -/
  record : List Event := []
  /-- the period of the timer of a run in milliseconds; without one it waits for pauses to pass -/
  period : Option Nat := none
  /-- the milliseconds that have passed -/
  elapsed : Nat := 0
  /-- when the present pause ends -/
  waking : Nat := 0
  /-- how far pauses may pass before something else happens -/
  horizon : Option Nat := none

namespace Rehearsal

def perform (r : Rehearsal) (m : Move) : Rehearsal :=
  match r.state.step r.setup m with
  | some (state, events) => { r with state, record := r.record ++ events }
  | none => r

def respond (r : Rehearsal) (id : Nat) : Rehearsal :=
  match r.script.queue with
  | response :: queue =>
    perform { r with script := { r.script with queue } } (.answer id response 0)
  | [] =>
    let r := if r.script.stopsWhenEmpty then r.perform .stop else r
    r.perform (.answer id r.script.steady 0)

/-- a move that asks for work, and its answer -/
def inquire (r : Rehearsal) (m : Move) : Rehearsal :=
  let id := r.state.nextInquiry
  (r.perform m).respond id

/-- begins a search, which ends at once if there is a reply left -/
def beginSearch (r : Rehearsal) (index : Nat) (q : Search) : Rehearsal :=
  let r := r.perform (.beginSearch index)
  match r.script.replies with
  | reply :: replies =>
    perform { r with script := { r.script with replies } } (.endSearch index (reply q.request))
  | [] => r

def judge (r : Rehearsal) : Rehearsal :=
  let r := match r.script.meanwhile with
    | some response =>
      inquire { r with script := { r.script with queue := response :: r.script.queue } } .tick
    | none => r
  r.perform (.judge r.script.verdict)

/-- how long the loop pauses after a failed round, in milliseconds -/
def pauseLength : Nat := 500

/-- the loop resumes after a round, and may have to pause -/
def closeRound (r : Rehearsal) : Rehearsal :=
  { r.perform .endRound with waking := r.elapsed + pauseLength }

/-- the loop goes on after a pause, which a stop cuts short -/
def wake (r : Rehearsal) : Option Rehearsal :=
  if r.state.isStopped then some (r.perform .endPause)
  else if r.horizon.all fun t => r.waking ≤ t then
    some (perform { r with elapsed := max r.elapsed r.waking } .endPause)
  else none

/-- whether a search has been cancelled while it holds its device -/
def isCut (r : Rehearsal) (q : Search) : Bool :=
  match q.phase with
  | .running token => r.state.tokens.isCancelled token
  | _ => false

/-- the next step of the searches of a round, or of the loop when they have all ended -/
def continueRound (r : Rehearsal) (searches : List Search) : Option Rehearsal :=
  let indexed := searches.zipIdx
  match indexed.find? fun p => match p.1.phase with
      | .waiting => true
      | _ => false with
  | some (q, i) => some (r.beginSearch i q)
  | none =>
    match indexed.find? fun p => r.isCut p.1 with
    | some (q, i) => some (r.perform (.endSearch i (r.script.late q.request)))
    | none => if searches.all fun q => q.result?.isSome then some r.closeRound else none

def continueLoop (r : Rehearsal) : Option Rehearsal :=
  match r.state.loop with
  | .absent | .finished | .broken _ => none
  | .started => some (r.perform .enter)
  | .ready _ => some (r.perform (.turn ⟨0, r.tails r.state.rounds⟩))
  | .round _ _ searches => r.continueRound searches
  | .pause _ => r.wake
  | .submission _ _ => some r.judge
  | .polling _ => (r.state.inquiries.find? fun q => q.asker == .loop).map fun q => r.respond q.id

/-- lets the loop go on for a number of steps at most -/
def settleWithin : Nat → Rehearsal → Rehearsal
  | 0, r => r
  | n + 1, r =>
    match r.continueLoop with
    | some r => settleWithin n r
    | none => r

/-- more steps than the loop can take before it waits, as each round either uses up a reply or is
one that has been waiting or goes on waiting -/
def patience (r : Rehearsal) : Nat :=
  8 * (r.script.replies.length + 4) * (r.setup.plan.workers + 1)

/-- lets the loop go on until it waits -/
def settle (r : Rehearsal) : Rehearsal := settleWithin r.patience r

/-! ## cues -/

/-- a request for work from outside, by its number and what has become of it -/
def tick (r : Rehearsal) : Nat × Rehearsal :=
  (r.state.nextInquiry, (r.inquire .tick).settle)

/-- a request for work from outside, whose errors are contained -/
def poll (r : Rehearsal) : Rehearsal := (r.inquire .poll).settle

def stop (r : Rehearsal) : Rehearsal := (r.perform .stop).settle

/-- the time at which the timer fires next, if it has a period -/
def due (r : Rehearsal) (beginning count : Nat) : Option Nat :=
  r.period.map fun p => beginning + count * p

/-- the timer of a run, which has fired some times already, until the miner is stopped -/
def follow (beginning count : Nat) : Nat → Rehearsal → Rehearsal
  | 0, r => r
  | n + 1, r =>
    if r.state.isStopped then r
    else
      let elapsed := (r.due beginning count).getD r.elapsed
      let horizon := r.due beginning (count + 1)
      follow beginning (count + 1) n (inquire { r with elapsed, horizon } .fire).settle

/-- a whole run, which is stopped by the first request that finds nothing prepared -/
def run (r : Rehearsal) : Rehearsal :=
  let r := perform { r with script := { r.script with stopsWhenEmpty := true } } .startRun
  let r := r.follow r.elapsed 0 (r.script.queue.length + 1)
  let r := (r.perform .leaveRun).settle.perform .endRun
  { r with script := { r.script with stopsWhenEmpty := false }, horizon := none }

def outcome? (id : Nat) (record : List Event) : Option (Except Error Outcome) :=
  record.findSome? fun
    | .answered i _ outcome => if i = id then some outcome else none
    | _ => none

def returned? (record : List Event) : Option (Except Error Unit) :=
  record.reverse.findSome? fun
    | .returned result => some result
    | _ => none

end Rehearsal

end HeaderMiner.Miner
