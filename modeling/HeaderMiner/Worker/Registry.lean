import HeaderMiner.Error
import HeaderMiner.Worker.Token
/-!
# Running jobs by device

A device runs at most one job.  Each job has a token of its own under its caller's, so stopping a
device cancels that job alone, and a job that ends frees its own device alone.
-/

namespace HeaderMiner

/-- the devices that run a job, with the job's token -/
structure Registry where
  jobs : List (Nat × Token) := []
deriving DecidableEq, Repr

namespace Registry

def find? (r : Registry) (device : Nat) : Option Token :=
  (r.jobs.find? fun j => j.1 == device).map (·.2)

def size (r : Registry) : Nat := r.jobs.length

/-- starts a job on a free device, under a parent token -/
def start (r : Registry) (ts : Tokens) (device : Nat) (parent : Token) :
    Except Error (Token × Registry × Tokens) :=
  match r.find? device with
  | some _ => .error (.jobInProgress device)
  | none =>
    let (t, ts) := ts.child parent
    .ok (t, { jobs := r.jobs ++ [(device, t)] }, ts)

def release (r : Registry) (device : Nat) : Registry :=
  { jobs := r.jobs.filter fun j => j.1 != device }

/-- cancels the job of a device, if there is one -/
def stop (r : Registry) (ts : Tokens) (device : Nat) : Bool × Tokens :=
  match r.find? device with
  | some t => (true, ts.cancel t)
  | none => (false, ts)

def stopAll (r : Registry) (ts : Tokens) : Tokens :=
  r.jobs.foldl (fun ts j => ts.cancel j.2) ts

end Registry

end HeaderMiner
