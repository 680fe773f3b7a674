/-!
# Errors

Everything that can go wrong while mining, one constructor per cause, with its wording
(`Error.message`), the area it is logged under (`Error.category`) and whether it ends the process
(`Error.isFatal`) or only the step that met it.
-/

namespace HeaderMiner

inductive Error where
  /-- compact bits of zero -/
  | invalidTarget
  /-- compact bits with the sign bit set -/
  | negativeTarget
  /-- compact bits whose value needs more than 32 bytes -/
  | targetOverflow
  | badHeaderSize (why : String)
  | badTargetSize (why : String)
  | badHeight (why : String)
  /-- a time outside 32 bits, or a header whose time guard is not zero -/
  | badTime (why : String)
  /-- the node serves another network -/
  | wrongNetwork (expected actual : String)
  /-- an answer of the node that makes no sense -/
  | protocol (why : String)
  /-- an error that the node itself reports -/
  | rpc (message : String) (code : Int)
  | unauthorized
  /-- the exchange with the node failed -/
  | http (why : String)
  | json (why : String)
  | yaml (why : String)
  | io (why : String)
  | config (why : String)
  | backend (name why : String)
  | jobInProgress (device : Nat)
  | noDevice (device : Nat)
  | unsupportedBackend (name : String)
  | timeout (operation : String)
deriving DecidableEq, Repr

namespace Error

def message : Error → String
  | invalidTarget => "Invalid target."
  | negativeTarget => "Negative target."
  | targetOverflow => "Target overflowed."
  | badHeaderSize why => "Bad header size: " ++ why
  | badTargetSize why => "Bad target size: " ++ why
  | badHeight why => "Bad height: " ++ why
  | badTime why => "Bad time: " ++ why
  | wrongNetwork expected actual =>
    "Wrong network: " ++ actual ++ " (expected " ++ expected ++ ")"
  | protocol why => "Protocol error: " ++ why
  | rpc message code => "RPC error: " ++ message ++ " " ++ toString code
  | unauthorized => "Unauthorized (bad API key)."
  | http why => "HTTP request failed: " ++ why
  | json why => "JSON error: " ++ why
  | yaml why => "YAML error: " ++ why
  | io why => "I/O error: " ++ why
  | config why => "Configuration error: " ++ why
  | backend name why => "Backend error: " ++ name ++ ": " ++ why
  | jobInProgress device => "Job already in progress on device " ++ toString device
  | noDevice device => "No such device: " ++ toString device
  | unsupportedBackend name => "Backend " ++ name ++ " not supported!"
  | timeout operation => "Operation timed out: " ++ operation

/-- the area that an error is logged under -/
def category : Error → String
  | invalidTarget | negativeTarget | targetOverflow => "target"
  | badHeaderSize _ => "header"
  | badTargetSize _ | badHeight _ | badTime _ | protocol _ => "protocol"
  | wrongNetwork _ _ => "network"
  | rpc _ _ | unauthorized => "rpc"
  | http _ => "http"
  | json _ => "json"
  | yaml _ => "yaml"
  | io _ => "io"
  | config _ => "config"
  | backend _ _ | jobInProgress _ | noDevice _ | unsupportedBackend _ => "backend"
  | timeout _ => "timeout"

/-- errors that no later answer can mend: they end the process -/
def isFatal : Error → Bool
  | wrongNetwork _ _ | unsupportedBackend _ | config _ => true
  | _ => false

end Error

/-- an assertion that a caller has broken -/
inductive Violation where
  /-- a header time above 48 bits -/
  | timeTooLarge (time : Nat)
  /-- a proof put behind something that is not one header -/
  | notOneHeader
  /-- a proof that is not a whole number of 32-bit words -/
  | brokenWords
  /-- a proof of more words than its one-byte count can hold -/
  | proofTooLong
deriving DecidableEq, Repr

def Violation.message : Violation → String
  | timeTooLarge time => "header time " ++ toString time ++ " exceeds 48 bits"
  | notOneHeader => "pre-solution header must be 256 bytes"
  | brokenWords => "solution must be whole 32-bit words"
  | proofTooLong => "solution too long"

end HeaderMiner
