/-!
# Disposals

What is done when a resource is released. A disposal is a finite program: it may change the
caller's state, look at it, cancel the run, take time, and itself register, release or clean
resources, also in the registry it is run from. It may end in a panic, which ends this disposal
and no other.

## Main definitions

* `Handle`, `RegistryId`: the names of resources and of registries.
* `Happening`: what can happen to the surroundings of a run while foreign code runs.
* `Disposal`: a release program.
* `Disposal.weight`: a bound on the steps that a disposal can cause.
-/

namespace Transduction

/-- The name of one resource; two live resources have different names. -/
structure Handle where
  index : Nat
  deriving DecidableEq, Repr

/-- The name of one registry. -/
structure RegistryId where
  index : Nat
  deriving DecidableEq, Repr

/-- What can happen to the surroundings of a run while foreign code runs: the run is cancelled, or
time passes. -/
inductive Happening where
  | cancel (reason : String)
  | elapse (nanos : Nat)
  deriving DecidableEq, Repr

/-- What is done when a resource is released, acting on a state `σ`. -/
inductive Disposal (σ : Type) where
  /-- Nothing more. -/
  | done
  /-- Ends this disposal abnormally. -/
  | panic
  /-- Changes the state. -/
  | act (change : σ → σ) (next : Disposal σ)
  /-- Looks at the state. -/
  | branch (test : σ → Bool) (yes no : Disposal σ)
  /-- Lets something happen to the surroundings. -/
  | meanwhile (happening : Happening) (next : Disposal σ)
  /-- Registers a resource with a disposal of its own. -/
  | acquire (registry : RegistryId) (handle : Handle) (disposal next : Disposal σ)
  /-- Releases a resource, and notes whether it was registered. -/
  | release (registry : RegistryId) (handle : Handle) (note : Bool → σ → σ) (next : Disposal σ)
  /-- Releases everything that is registered, and notes how much it was. -/
  | clean (registry : RegistryId) (note : Nat → σ → σ) (next : Disposal σ)

namespace Disposal

variable {σ : Type}

/-- A bound on the number of steps that a disposal can cause, those of the disposals it registers
included. -/
def weight : Disposal σ → Nat
  | done => 1
  | panic => 1
  | act _ next => next.weight + 1
  | branch _ yes no => yes.weight + no.weight + 1
  | meanwhile _ next => next.weight + 1
  | acquire _ _ disposal next => disposal.weight + next.weight + 2
  | release _ _ _ next => next.weight + 2
  | clean _ _ next => next.weight + 2

theorem weight_pos (disposal : Disposal σ) : 0 < disposal.weight := by
  cases disposal <;> simp [weight]

end Disposal

end Transduction
