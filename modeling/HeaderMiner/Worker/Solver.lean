import HeaderMiner.Power
import HeaderMiner.Text.Blank
import HeaderMiner.Text.Natural
import HeaderMiner.Worker.Stats
/-!
# External solvers

A solver is a program that is started once for each search.  It is handed the header and the target
on two lines, its parameters in the environment, and answers with nothing, or with a nonce and a
proof in hexadecimal.  Whatever it writes is either blank, or exactly such an answer, or an error;
so a proof that is accepted is a whole number of words, at least one and at most 255.
-/

namespace HeaderMiner.Solver

/-- the name under which solver errors are reported -/
def name : String := "external"

def failure (why : String) : Error := .backend name why

/-! ## the question -/

/-- the two lines that a solver reads -/
def input (r : Request) : String := r.header.toHex ++ "\n" ++ r.target.toHex ++ "\n"

/-- the variables that a solver is started with -/
def environment (r : Request) : List (String × String) :=
  ("HS_DEVICE", toString r.device) :: match r.params with
    | .cycle p => [("HS_THREADS", toString p.threads), ("HS_TRIMS", toString p.trims)]
    | .nonce p =>
      [("HS_NONCE", toString p.nonce), ("HS_RANGE", toString p.range),
       ("HS_GRIDS", toString p.grids), ("HS_BLOCKS", toString p.blocks),
       ("HS_THREADS", toString p.threads)]

/-! ## the answer -/

/-- whether a proof has at least one word, whole words only and not too many -/
def isProofSize (n : Nat) : Bool := n ≠ 0 && n % 4 == 0 && n / 4 ≤ 255

def parseOutput (stdout : List UInt8) : Except Error (Option (UInt32 × List UInt8)) :=
  let line := Text.trim (Utf8.decodeLossy stdout).toList
  match Text.words line with
  | [] => .ok none
  | [nonce, proof] =>
    match Text.natural (2 ^ 32) nonce with
    | .error f =>
      .error (failure ("invalid nonce " ++ Text.quoted (String.ofList nonce) ++ ": " ++ f.message))
    | .ok n =>
      match Hex.decode (String.ofList proof) with
      | .error f => .error (failure ("invalid solution hex: " ++ f.message))
      | .ok bs =>
        if isProofSize bs.length then .ok (some (UInt32.ofNat n, bs))
        else .error (failure s!"solution of {bs.length} bytes is not a valid cycle")
  | _ =>
    .error (failure
      ("expected `<nonce> <solution-hex>`, got " ++ Text.quoted (String.ofList line)))

def candidate (r : Request) : Option (UInt32 × List UInt8) → Candidate
  | none => .noneOn r.header
  | some (nonce, proof) =>
    { nonce, extraNonce := r.header.extraNonce, proof := some proof,
      isMatch := r.target.isMetBy (proofHash proof) }

/-! ## the run -/

/-- how a solver process goes -/
inductive Run where
  /-- it cannot be started -/
  | notStarted (why : String)
  /-- it does not take the question -/
  | notAsked (why : String)
  /-- it ends by itself; a process that a signal ends has no code -/
  | exited (code : Option Int) (stdout stderr : List UInt8)
  /-- it cannot be waited for -/
  | lost (why : String)
  /-- it does not end in the time that it is given -/
  | endless
deriving DecidableEq, Repr

/-- the output of a run that nothing cuts short -/
def Run.output : Run → Except Error (List UInt8)
  | .notStarted why => .error (failure ("failed to spawn solver: " ++ why))
  | .notAsked why => .error (failure ("failed to write stdin: " ++ why))
  | .exited (some 0) stdout _ => .ok stdout
  | .exited code _ stderr =>
    .error (failure ("solver exited with code " ++ toString (code.getD (-1)) ++ ": "
      ++ String.ofList (Text.trim (Utf8.decodeLossy stderr).toList)))
  | .lost why => .error (failure ("solver failed: " ++ why))
  | .endless => .error (.timeout "external solver")

/-- what decides a search: the solver or the cancellation -/
inductive Ending where
  | cancelled
  | solver (run : Run)
deriving DecidableEq, Repr

/-- one look at a search that its solver or its token may decide -/
structure Look where
  /-- whether the solver is looked at before the token -/
  solverFirst : Bool
  /-- how the solver has gone, if it is over when it is looked at -/
  gone : Option Run
deriving DecidableEq, Repr

/-- what a look decides, by whether the token is cancelled: what is seen first decides -/
def Look.ending? (l : Look) (cancelled : Bool) : Option Ending :=
  let token := if cancelled then some .cancelled else none
  let solver := l.gone.map .solver
  if l.solverFirst then solver.or token else token.or solver

/-- how a run is seen the first time that anyone looks; only the failure to start it is there at once -/
def Run.atOnce : Run → Option Run
  | .notStarted why => some (.notStarted why)
  | _ => none

/-- the result of a search and what it adds to the totals -/
def conclude (r : Request) : Ending → Except Error Candidate × Stats
  | .cancelled => (.ok .none, {})
  | .solver run =>
    match run.output.bind parseOutput with
    | .error e => (.error e, {})
    | .ok answer =>
      let c := candidate r answer
      (.ok c, ⟨1, if c.isMatch then 1 else 0⟩)

end HeaderMiner.Solver
