import Transduction.Session.Basic

/-!
# Stepping through an instance

One instance of a pipeline is fed several inputs in one context, and every verdict is shown. The
instance ends in a sink that appends values to a list and can be told to stop on some of them.

## Main definitions

* `Finish`: on which values the sink stops, and how.
* `Finish.sink`: the sink.
* `stepping`: the verdicts on several inputs.
-/

namespace Transduction.Session

open Blueprint

/-- On which values a sink stops, and how; failing is looked at first and completing last. -/
structure Finish where
  failing : Option Predicate
  alternate : Option Predicate
  completing : Option Predicate

/-- Whether a value satisfies a test that may be missing. -/
def holds {κ : Type} (test : Option Predicate) (value : Value) : Step Journal κ Bool :=
  match test with
  | some test => Step.call test.callback value
  | none => pure false

/-- The sink that logs every value and appends it to a list. -/
def Finish.sink (finish : Finish) : Sink Journal Value Unit (List Value) Value :=
  fun context acc value => do
    let registered ← Step.ask (·.store.size context.registry)
    Step.update fun world =>
      { world with user := world.user.write (.ended (world.user.stamp value) registered) }
    if ← holds finish.failing value then
      return .fail (.message ("end:" ++ value.display))
    else if ← holds finish.alternate value then
      return .alternate value
    else if ← holds finish.completing value then
      return .complete (acc ++ [value])
    else
      return .proceed (acc ++ [value])

/-- The verdict on one input, the log, and how many resources are registered after it. -/
structure StepOutcome where
  result : Except Halt (Verdict Value (List Value))
  log : List Note
  registered : Nat

/-- The accumulator for the next input: that of the verdict, if it has one. -/
def nextAcc (seed : List Value) : Except Halt (Verdict Value (List Value)) → List Value
  | .ok verdict => verdict.acc?.getD seed
  | .error _ => seed

/-- The verdicts on several inputs, one after the other. -/
def stepEach {κ : Type} (sink : Sink Journal Value κ (List Value) Value) (context : Context)
    (seed : List Value) : List Value → List Value → κ → World → List StepOutcome × World
  | [], _, _, world => ([], world)
  | input :: rest, acc, state, world =>
    let ended := sink context acc input state world
    let (log, world) := takeLog ended.env
    let outcome : StepOutcome :=
      ⟨ended.result.map (stampVerdict world), log, world.store.size context.registry⟩
    let (outcomes, world) :=
      stepEach sink context seed rest (nextAcc seed ended.result) ended.state world
    (outcome :: outcomes, world)

/-- A session that steps through one instance of a pipeline, with the log of dropping its context
at the end. -/
def stepping (pipeline : Pipeline) (labels : List String) (setting : Setting) (finish : Finish)
    (seed inputs : List Value) : List StepOutcome × List Note × Tail :=
  let (context, world) := setting.enter (begin labels)
  let stage := pipeline.build ⟨true, true⟩
  let (outcomes, world) :=
    stepEach (stage.run patience finish.sink) context seed inputs seed (stage.init, ()) world
  let (log, world) := takeLog (world.dropRegistry context.registry)
  (outcomes, log, .of world)

end Transduction.Session
