import Transduction.Step
import Transduction.Verdict

/-!
# Sinks

A sink is a continuation: what to do with one value, given the context of the run and the
accumulator so far. It may keep a state from one value to the next.

## Main definitions

* `Sink`: continuations.
* `Sink.first`, `Sink.last`, `Sink.all`: keeping the first value and stopping, keeping the latest
  value, and keeping all values in order.

## Main results

* `Sink.first_apply`, `Sink.last_apply`, `Sink.all_apply`: what the three answer.
-/

namespace Transduction

/-- A continuation for values in `A` with accumulators in `S`, a state in `κ` and alternates in
`X`. -/
def Sink (σ X κ S A : Type) : Type := Context → S → A → Step σ κ (Verdict X S)

namespace Sink

variable {σ X ι κ S A B : Type}

/-- Keeps the first value and stops. -/
def first : Sink σ X Unit (Option A) A := fun _ _ value => pure (.complete (some value))

/-- Keeps the latest value. -/
def last : Sink σ X Unit (Option A) A := fun _ _ value => pure (.proceed (some value))

/-- Keeps all values in order. -/
def all : Sink σ X Unit (Array A) A := fun _ values value => pure (.proceed (values.push value))

/-- A step of what is downstream, seen from a stage that has a state of its own in front. -/
def below {α : Type} (step : Step σ κ α) : Step σ (ι × κ) α :=
  Step.zoom Prod.snd (fun state down => (state.1, down)) step

/-- The state of the stage itself. -/
def own : Step σ (ι × κ) ι := fun state env => ⟨.ok state.1, state, env⟩

/-- Replaces the state of the stage itself. -/
def setOwn (mine : ι) : Step σ (ι × κ) Unit := fun state env => ⟨.ok (), (mine, state.2), env⟩

theorem first_apply (context : Context) (acc : Option A) (value : A) (state : Unit) (env : Env σ) :
    (first : Sink σ X Unit (Option A) A) context acc value state env
      = ⟨.ok (.complete (some value)), state, env⟩ := rfl

theorem last_apply (context : Context) (acc : Option A) (value : A) (state : Unit) (env : Env σ) :
    (last : Sink σ X Unit (Option A) A) context acc value state env
      = ⟨.ok (.proceed (some value)), state, env⟩ := rfl

theorem all_apply (context : Context) (acc : Array A) (value : A) (state : Unit) (env : Env σ) :
    (all : Sink σ X Unit (Array A) A) context acc value state env
      = ⟨.ok (.proceed (acc.push value)), state, env⟩ := rfl

end Sink

end Transduction
