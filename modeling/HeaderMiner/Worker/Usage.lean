import HeaderMiner.Worker.Registry
/-!
# A registry in use

Callers make tokens for themselves and begin jobs under tokens that they have: those that they have
made, and those of jobs, which may outlive them.  Who has begun a job holds it until it drops it, and
nobody else can drop it; the registry, which knows a job by its device alone, is told no more than that
device.
-/

namespace HeaderMiner.Registry

structure Job where
  device : Nat
  parent : Token
  token : Token
deriving DecidableEq, Repr

/-- a registry and what its callers have -/
structure Usage where
  registry : Registry := {}
  tokens : Tokens := {}
  /-- the tokens that callers have made for themselves -/
  own : List Token := []
  /-- the jobs that have been begun, in their order -/
  begun : List Job := []
  /-- those of them that have not been dropped -/
  held : List Job := []
deriving DecidableEq

inductive Act where
  /-- makes a token without a parent -/
  | root
  /-- makes a token under another one -/
  | child (parent : Token)
  | begin (device : Nat) (parent : Token)
  | drop (job : Job)
  | stop (device : Nat)
  | stopAll
  /-- cancels one of the callers' own tokens -/
  | cancel (token : Token)
  /-- cancels the token of one job, held or not -/
  | cancelJob (job : Job)
deriving DecidableEq, Repr

inductive Answer where
  | done
  | made (token : Token)
  | begun (job : Job)
  | refused (e : Error)
  | stopped (found : Bool)
deriving DecidableEq

namespace Usage

/-- the tokens that callers have: their own and those of the jobs that have been begun -/
def hand (u : Usage) : List Token := u.own ++ u.begun.map Job.token

def owns (u : Usage) (t : Token) : Bool := u.own.contains t

/-- does what a caller does, if the caller has the tokens and the job that it does it with -/
def act (u : Usage) : Act → Option (Answer × Usage)
  | .root =>
    let (t, tokens) := u.tokens.root
    some (.made t, { u with tokens, own := t :: u.own })
  | .child parent =>
    if parent ∈ u.hand then
      let (t, tokens) := u.tokens.child parent
      some (.made t, { u with tokens, own := t :: u.own })
    else none
  | .begin device parent =>
    if parent ∈ u.hand then
      match u.registry.start u.tokens device parent with
      | .error e => some (.refused e, u)
      | .ok (token, registry, tokens) =>
        let job : Job := { device, parent, token }
        some (.begun job,
          { u with registry, tokens, begun := u.begun ++ [job], held := u.held ++ [job] })
    else none
  | .drop job =>
    if job ∈ u.held then
      some (.done, { u with
        registry := u.registry.release job.device, held := u.held.erase job })
    else none
  | .stop device =>
    let (found, tokens) := u.registry.stop u.tokens device
    some (.stopped found, { u with tokens })
  | .stopAll => some (.done, { u with tokens := u.registry.stopAll u.tokens })
  | .cancel token =>
    if u.owns token then some (.done, { u with tokens := u.tokens.cancel token }) else none
  | .cancelJob job =>
    if job ∈ u.begun then some (.done, { u with tokens := u.tokens.cancel job.token }) else none

end Usage

end HeaderMiner.Registry
