import Transduction.Stage.Derived
import Transduction.Yield

/-!
# Whole runs

Running a stage on one input and collecting what comes out of it, all of it or the first value
only. The registry of the run is cleaned before the run is over, however it ends.

## Main definitions

* `Stage.collectIn`, `Stage.firstIn`: a run in a given context.
* `Stage.collect`, `Stage.first`: a run in a context of its own, whose registry is dropped at the
  end.
-/

namespace Transduction.Stage

variable {σ X A B S : Type}

/-- What a run yields, from its last verdict. -/
def yieldOf [TypeNamed X] (shape : S → Yield B) (verdict : Verdict X S) : Yield B :=
  match verdict.result with
  | .ok acc => shape acc
  | .error failure => .fail failure

/-- A run of a new instance in a given context, with a sink of its own and the clean-up after it. -/
def runIn [TypeNamed X] (fuel : Nat) (stage : Stage σ X A B) (sink : Sink σ X Unit S B) (seed : S)
    (shape : S → Yield B) (context : Context) (input : A) (env : Env σ) :
    Except Halt (Yield B) × Env σ :=
  let step := (stage.run fuel sink context seed input).ensure fun env =>
    (env.clean context.registry).2
  let ended := step (stage.init, ()) env
  (ended.result.map (yieldOf shape), ended.env)

/-- All outputs of a run in a given context. -/
def collectIn [TypeNamed X] (fuel : Nat) (stage : Stage σ X A B) (context : Context) (input : A)
    (env : Env σ) : Except Halt (Yield B) × Env σ :=
  stage.runIn fuel Sink.all #[] (fun values => .ofList values.toList) context input env

/-- The first output of a run in a given context; the run stops there. -/
def firstIn [TypeNamed X] (fuel : Nat) (stage : Stage σ X A B) (context : Context) (input : A)
    (env : Env σ) : Except Halt (Yield B) × Env σ :=
  stage.runIn fuel Sink.first none .ofOption context input env

/-- A run in a context of its own. -/
def alone (run : Context → Env σ → Except Halt (Yield B) × Env σ) (env : Env σ) :
    Except Halt (Yield B) × Env σ :=
  let (context, env) := env.openContext none
  let (result, env) := run context env
  (result, env.dropRegistry context.registry)

/-- All outputs of a run. -/
def collect [TypeNamed X] (fuel : Nat) (stage : Stage σ X A B) (input : A) (env : Env σ) :
    Except Halt (Yield B) × Env σ :=
  alone (stage.collectIn fuel · input) env

/-- The first output of a run; the run stops there. -/
def first [TypeNamed X] (fuel : Nat) (stage : Stage σ X A B) (input : A) (env : Env σ) :
    Except Halt (Yield B) × Env σ :=
  alone (stage.firstIn fuel · input) env

end Transduction.Stage
