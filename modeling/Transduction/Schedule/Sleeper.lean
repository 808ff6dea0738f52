import Transduction.Step
import Transduction.Schedule.Basic

/-!
# Waiting between attempts

A sleeper is the foreign code that waits. A wait is refused before it begins if the run is
cancelled or would pass its deadline by waiting, and it is cut short if the run is cancelled
meanwhile.

## Main definitions

* `Rest`, `Sleeper`: how a wait ended, and what waits.
* `Env.nextDelay`: the next delay of a pass, drawn from the dice of the run.
* `waitOut`, `pause`: one wait, and one inside a run that may have to stop.

## Main results

* `pause_of_interrupted`: an interrupted run does not begin to wait.
-/

namespace Transduction

/-- How a wait ended. -/
inductive Rest where
  /-- The time was up. -/
  | elapsed
  /-- The run was cancelled meanwhile. -/
  | interrupted (reason : String)
  /-- It did not end. -/
  | never
  deriving DecidableEq, Repr

/-- What waits. -/
abbrev Sleeper (σ : Type) : Type := Callback σ Duration Rest

variable {σ κ : Type}

/-- The next delay of a pass, drawn from the dice of the run. -/
def Env.nextDelay (env : Env σ) (schedule : Schedule) (pass : schedule.Pass) :
    Option (Duration × schedule.Pass) × Env σ :=
  let (found, dice) := schedule.next? pass env.dice
  (found, { env with dice })

/-- Whether a wait from now on would pass the deadline. -/
def Env.wouldOverrun (env : Env σ) (context : Context) (delay : Duration) : Bool :=
  match context.deadline with
  | some deadline => deadline < env.now + delay.nanos
  | none => false

/-- Waits, and says why the run has to stop if the wait was cut short. -/
def waitOut (sleeper : Sleeper σ) (context : Context) (delay : Duration) :
    Step σ κ (Option Failure) := do
  Step.update (·.record (.waited delay))
  match ← Step.call sleeper delay with
  | .elapsed => return none
  | .interrupted reason =>
    Step.update (·.cancel reason)
    some <$> Step.stop (← Step.ask (·.interruption context))
  | .never => Step.halt .endless

/-- Waits, and says why the run has to stop instead of going on after the wait, if it has to. -/
def pause (sleeper : Sleeper σ) (context : Context) (delay : Duration) :
    Step σ κ (Option Failure) := do
  match ← Step.ask (·.interruption? context) with
  | some failure => some <$> Step.stop failure
  | none =>
    if ← Step.ask (·.wouldOverrun context delay) then
      some <$> Step.stop .deadlineExceeded
    else
      waitOut sleeper context delay

theorem pause_of_interrupted {env : Env σ} {context : Context} {failure : Failure}
    (h : env.interruption? context = some failure) (sleeper : Sleeper σ) (delay : Duration)
    (state : κ) : pause sleeper context delay state env =
      ⟨.ok (some failure), state, env.record (.stopped failure)⟩ := by
  simp only [pause, Step.bind_apply, Step.ask, h]
  rfl

end Transduction
