import HeaderMiner.Miner.Step
import HeaderMiner.Program
import HeaderMiner.Rpc
/-!
# The program

Reads the command line, the environment and the files that they name, and then either prints and
exits or mines.  All decisions are `Program.start`'s and `Miner.State.step`'s; what stands here only
fetches what they ask for and offers one move after the other, so searches do not run side by side.

There is no network and no way to start a solver here: an exchange with the node fails as it does
with a node that cannot be reached (`Main.exchange`), and a solver as one that cannot be started.
-/

namespace HeaderMiner.Main

/-! ## files -/

/-- why the system does not do what it is asked for a path -/
def faultOf : IO.Error → FileFault
  | .noFileOrDirectory .. => .missing
  | .inappropriateType _ code details =>
    if code = 21 then .isDirectory else if code = 20 then .notDirectory else .other details
  | e => .other (toString e)

def readText (path : String) : IO (Except FileFault String) := do
  try
    let bytes ← IO.FS.readBinFile path
    return match Utf8.decode? bytes.toList with
      | some text => .ok text
      | none => .error .notText
  catch e => return .error (faultOf e)

def makeDirectory (path : String) : IO (Except FileFault Unit) := do
  try
    IO.FS.createDirAll path
    return .ok ()
  catch e => return .error (faultOf e)

def sources (arguments : List String) : IO Sources := do
  let network ← IO.getEnv "HS_NETWORK"
  let pass ← IO.getEnv "HS_RPC_PASS"
  let path := match CommandLine.read arguments with
    | .ok line => line.configFile
    | .error _ => none
  let text ← match path with
    | some p => readText p
    | none => pure (.error .missing)
  return {
    arguments
    environment := fun name =>
      if name = "HS_NETWORK" then network else if name = "HS_RPC_PASS" then pass else none
    file := fun _ => text }

/-- the number of cores that the system tells of, at least one -/
def cores : IO Nat := do
  match ← readText "/proc/cpuinfo" with
  | .ok text => return max 1 ((text.splitOn "\nprocessor").length - 1)
  | .error _ => return 1

/-! ## mining -/

def exchange (_ : Rpc.Client) (_ : Rpc.Call) : IO Rpc.Exchange := return .failed "no network"

structure Running where
  setup : Miner.Setup
  backend : Backend
  client : Rpc.Client
  /-- the time between two requests of the timer, in milliseconds -/
  interval : Nat
  /-- when the timer fires next -/
  due : Nat
  /-- the last block handed in -/
  block : List UInt8 := []
  state : Miner.State := .fresh

/-- makes a move and tells what has happened -/
def Running.perform (r : Running) (m : Miner.Move) : Running × List Miner.Event :=
  match r.state.step r.setup m with
  | some (state, events) =>
    let block := (events.findSome? fun
      | .submitted _ raw => some raw
      | _ => none).getD r.block
    ({ r with state, block }, events)
  | none => (r, [])

def Running.getWork (r : Running) : IO (Miner.Response × Running) := do
  let (call, client) := r.client.getWork r.state.shownIdentity.toList
  return ((← exchange r.client call).work, { r with client })

def Running.submitWork (r : Running) : IO (Except Error Verdict × Running) := do
  let (call, client) := r.client.submitWork r.block
  return ((← exchange r.client call).verdict, { r with client })

/-- the random tails of as many searches as a round has -/
def tails (workers : Nat) : IO (Nat → Octets 12) := do
  let bytes ← IO.getRandomBytes (USize.ofNat (12 * workers))
  return fun i => (Octets.ofList? 12 ((bytes.toList.drop (12 * i)).take 12)).getD (.replicate 12 0)

/-- the result of a search, which nothing cuts short -/
def Running.search (r : Running) (q : Miner.Search) : Except Error Candidate :=
  (r.backend.conclude ⟨q.request, q.parent⟩
    { ending := .solver (.notStarted "no processes") }).1

/-- the next move of a round -/
def Running.roundMove (r : Running) (searches : List Miner.Search) : Miner.Move :=
  let moves := searches.zipIdx.filterMap fun (q, i) => match q.phase with
    | .waiting => some (Miner.Move.beginSearch i)
    | .running _ => some (.endSearch i (r.search q))
    | .ended _ => none
  moves.headD .endRound

/-- the time in milliseconds; where it begins does not matter, as it is set by the node's -/
def clock : IO Nat := IO.monoMsNow

/-- the next step of the mining loop, or some sleep if it has nothing to do -/
def Running.next (r : Running) (now : Nat) : IO Running := do
  match r.state.loop with
  | .started => return (r.perform .enter).1
  | .ready _ =>
    let tails ← tails r.setup.plan.workers
    return (r.perform (.turn ⟨(now / 1000 : Nat), tails⟩)).1
  | .round _ _ searches => return (r.perform (r.roundMove searches)).1
  | .pause _ =>
    IO.sleep 500
    return (r.perform .endPause).1
  | .submission _ _ =>
    let (verdict, r) ← r.submitWork
    return (r.perform (.judge verdict)).1
  | .absent | .polling _ | .finished | .broken _ =>
    IO.sleep (UInt32.ofNat (min 1000 (r.due - now)))
    return r

/-- mines until the run returns, and gives the exit code -/
partial def Running.mine (r : Running) : IO UInt32 := do
  let now ← clock
  if let some q := r.state.inquiries.head? then
    let (response, r) ← r.getWork
    mine (r.perform (.answer q.id response (now / 1000 : Nat))).1
  else if r.state.run = .leaving then
    match (r.perform .endRun).2 with
    | [.returned (.error _)] => return 1
    | [.returned (.ok ())] => return 0
    | _ => mine (← r.next now)
  else if r.state.isStopped then mine (r.perform .leaveRun).1
  else if r.due ≤ now then mine { (r.perform .fire).1 with due := now + r.interval }
  else mine (← r.next now)

def refuse (context : String) (e : Error) : IO UInt32 := do
  IO.eprint (Program.report (some context) e)
  return 1

/-- mines with settings -/
def mine (c : Settings) : IO UInt32 := do
  match c.makeBackend (← cores) with
  | .error e => refuse "creating backend" e
  | .ok backend =>
    match Rpc.Client.new c.rpcUrl (c .user : String) (c .pass : String) with
    | .error e => refuse "creating RPC client" e
    | .ok client =>
      let setup := Miner.Setup.ofBackend (c .network) backend c.params c.device
      let interval := max 1 ((c .pollInterval : Duration).nanos / 1000000)
      let r : Running := { setup, backend, client, interval, due := ← clock }
      (r.perform .startRun).1.mine

def logDirectory (c : Settings) : Option String :=
  ((c .logFile : Option String).bind Program.splitPath).map Prod.fst

def run (arguments : List String) : IO UInt32 := do
  let sources ← sources arguments
  let made ← match Program.start sources fun _ => .ok () with
    | .mine c => match logDirectory c with
      | some directory => makeDirectory directory
      | none => pure (.ok ())
    | .exit .. => pure (.ok ())
  match Program.start sources fun _ => made with
  | .exit code output errors =>
    IO.print output
    IO.eprint errors
    return UInt32.ofNat code
  | .mine c => mine c

end HeaderMiner.Main

def main (arguments : List String) : IO UInt32 := HeaderMiner.Main.run arguments
