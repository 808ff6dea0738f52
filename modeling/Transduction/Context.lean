import Transduction.Registry.Settlement
import Transduction.Identity
import Transduction.Failure

/-!
# Run contexts

What belongs to a run besides its accumulator: who it is, the registry of its current scope, and
when it has to stop. A scope inside a run gets an identity and a registry of its own and shares
the rest.

## Main definitions

* `Context`: identity, registry and deadline.
* `Env.openContext`: the context of a fresh run.
* `Env.nestedContext`: the context of a scope inside a run.
* `Env.interruption?`: why a run has to stop now, if it has to.
* `Env.interruption`: why a run that was told to stop has to stop.

## Main results

* `Env.interruption?_of_cancelled`: a cancellation comes before the deadline.
-/

namespace Transduction

/-- What belongs to a run besides its accumulator. -/
structure Context where
  identity : Identity
  registry : RegistryId
  /-- The time on the clock at which the run has to stop. -/
  deadline : Option Nat
  deriving DecidableEq, Repr

namespace Env

variable {σ : Type}

/-- Hands out an identifier. -/
def newIdentifier (env : Env σ) : Uuid × Env σ :=
  (.ofNat env.identifiers, { env with identifiers := env.identifiers + 1 })

/-- The context of a fresh run, with an empty registry. -/
def openContext (env : Env σ) (deadline : Option Nat) : Context × Env σ :=
  let (run, env) := env.newIdentifier
  let (registry, env) := env.openRegistry
  (⟨.root run, registry, deadline⟩, env)

/-- The context of a scope inside a run, with an empty registry. -/
def nestedContext (env : Env σ) (outer : Context) : Context × Env σ :=
  let (scope, env) := env.newIdentifier
  let (registry, env) := env.openRegistry
  ({ outer with identity := outer.identity.nested scope, registry }, env)

/-- Whether the deadline of a context is reached. -/
def isOverdue (env : Env σ) (context : Context) : Bool :=
  match context.deadline with
  | some deadline => deadline ≤ env.now
  | none => false

/-- Why a run has to stop now, if it has to; a cancellation comes before the deadline. -/
def interruption? (env : Env σ) (context : Context) : Option Failure :=
  match env.token.reason with
  | some reason => some (.cancelled reason)
  | none => if env.isOverdue context then some .deadlineExceeded else none

/-- Why a run that was told to stop has to stop; it is told so by its token, which has a reason. -/
def interruption (env : Env σ) (context : Context) : Failure :=
  (env.interruption? context).getD (.cancelled "")

theorem interruption?_of_cancelled {env : Env σ} {reason : String}
    (h : env.token.reason = some reason) (context : Context) :
    env.interruption? context = some (.cancelled reason) := by
  simp [interruption?, h]

theorem not_cancelled_of_interruption? {env : Env σ} {context : Context}
    (h : env.interruption? context = none) : env.token.reason = none := by
  cases hreason : env.token.reason with
  | none => rfl
  | some reason => cases (interruption?_of_cancelled hreason context).symm.trans h

theorem interruption_of_cancelled {env : Env σ} {reason : String}
    (h : env.token.reason = some reason) (context : Context) :
    env.interruption context = .cancelled reason := by
  rw [interruption, interruption?_of_cancelled h]
  rfl

end Env

end Transduction
