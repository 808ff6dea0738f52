import Transduction.Proofs.Likeness.Basic
import Transduction.Stage.Derived

/-!
# Going on with right values

A stage may go on with the right values of another one. Doing so is associative, also if all stages
remember something and stop in the middle of their work: the two groupings are the same machine with
its states arranged in another way. Passing right values on as they are is neutral.

A value that is not on the right channel goes past the stages behind it. It is handed to the common
sink on its own channel, and the instances it goes past are not run and keep their states.

## Main definitions

* `Branch.offRight`: a left value or a failure, beside any right channel.

## Main results

* `Stage.run_bindRight_offRight`: what is not on the right channel goes past a stage.
* `Stage.andThen_assoc`, `Stage.andThen_right`: the laws of going on with right values.
* `Stage.andThen_laws`: the laws, with what happens to all other values.
-/

namespace Transduction

variable {σ X κ L S A B C D : Type}

/-- A left value or a failure, beside any right channel. -/
def Branch.offRight {R : Type} : L ⊕ Failure → Branch L R
  | .inl value => left value
  | .inr failure => fail failure

namespace Stage

section Sinks

variable (fuel : Nat) (f : Stage σ X B (Branch L C)) (g : Stage σ X C (Branch L D))
  (sink : Sink σ X κ S (Branch L D)) (context : Context) (acc : S) (mf : f.State) (mg : g.State)
  (down : κ) (env : Env σ)

/-- Two stages in front of a sink, one after the other or as one. -/
theorem run_bindRight_andThen (value : Branch L B) :
    let ended := (bindRight f).run fuel ((bindRight g).run fuel sink) context acc value
      (mf, mg, down) env
    (bindRight (f.andThen g)).run fuel sink context acc value ((mf, mg), down) env =
      ⟨ended.result, ((ended.state.1, ended.state.2.1), ended.state.2.2), ended.env⟩ := by
  cases value with
  | left | right | fail => rfl

/-- Passing right values on as they are does not change what reaches a sink. -/
theorem run_bindRight_right (value : Branch L D) (state : Unit × κ) :
    let answer := (bindRight (map (.ofFun .right))).run fuel sink context acc value state env
    sink context acc value state.2 env = ⟨answer.result, answer.state.2, answer.env⟩ := by
  cases value with
  | left | right | fail => rfl

/-- What is not on the right channel goes past a stage. -/
theorem run_bindRight_offRight (stage : Stage σ X B (Branch L D)) (mine : stage.State)
    (value : L ⊕ Failure) :
    (bindRight stage).run fuel sink context acc (.offRight value) (mine, down) env =
      let ended := sink context acc (.offRight value) down env
      ⟨ended.result, (mine, ended.state), ended.env⟩ := by
  rcases value with value | failure <;> rfl

end Sinks

variable (fuel : Nat) (first : Stage σ X A (Branch L B)) (f : Stage σ X B (Branch L C))
  (g : Stage σ X C (Branch L D))

/-- Going on with right values is associative. -/
theorem andThen_assoc : ((first.andThen f).andThen g).Alike fuel (first.andThen (f.andThen g))
    fun mine => (mine.1.1, mine.1.2, mine.2) := by
  refine .of_run rfl fun sink context acc a mine down env => ?_
  have hfirst := run_natural fuel first (fun state : f.State × g.State × _ =>
    ((state.1, state.2.1), state.2.2)) (fun acc value state env =>
      run_bindRight_andThen fuel f g sink context acc state.1 state.2.1 state.2.2 env value)
    acc a mine.1.1 (mine.1.2, mine.2, down) env
  exact congrArg (fun ended : Ended σ (first.State × (f.State × g.State) × _) _ =>
    Ended.mk ended.result ((ended.state.1, ended.state.2.1), ended.state.2.2) ended.env) hfirst

/-- Passing right values on as they are is neutral. -/
theorem andThen_right :
    (first.andThen (map (.ofFun .right))).Alike fuel first Prod.fst := by
  refine .of_run rfl fun sink context acc a mine down env => ?_
  have hsink := fun acc value state env =>
    run_bindRight_right fuel sink context acc env value state
  exact run_natural fuel first Prod.snd hsink acc a mine.1 (mine.2, down) env

/-- Going on with the right values of a stage is associative, and passing them on as they are is
neutral: no sink, no values and no surroundings tell the two sides apart.

In both groupings the first stage feeds what stands behind it, and nothing else. Fed with a value
that is not on the right channel, what stands behind it does what the sink of the whole does with
that value on the same channel: the other two stages are not run and keep their states. -/
theorem andThen_laws :
    ((first.andThen f).andThen g).Alike fuel (first.andThen (f.andThen g))
      (fun mine => (mine.1.1, mine.1.2, mine.2)) ∧
    (first.andThen (map (.ofFun .right))).Alike fuel first Prod.fst ∧
    ∀ {κ S : Type} (sink : Sink σ X κ S (Branch L D)),
      let apart := (bindRight f).run fuel ((bindRight g).run fuel sink)
      let joined := (bindRight (f.andThen g)).run fuel sink
      (∀ context acc a mine mf mg down env,
        let fed := first.run fuel apart context acc a (mine, mf, mg, down) env
        let fed' := first.run fuel joined context acc a (mine, (mf, mg), down) env
        ((first.andThen f).andThen g).run fuel sink context acc a (((mine, mf), mg), down) env =
          ⟨fed.result, (((fed.state.1, fed.state.2.1), fed.state.2.2.1), fed.state.2.2.2),
            fed.env⟩ ∧
        (first.andThen (f.andThen g)).run fuel sink context acc a ((mine, mf, mg), down) env =
          ⟨fed'.result, ((fed'.state.1, fed'.state.2.1), fed'.state.2.2), fed'.env⟩) ∧
      ∀ context acc value mf mg down env,
        let ended := sink context acc (.offRight value) down env
        apart context acc (.offRight value) (mf, mg, down) env =
          ⟨ended.result, (mf, mg, ended.state), ended.env⟩ ∧
        joined context acc (.offRight value) ((mf, mg), down) env =
          ⟨ended.result, ((mf, mg), ended.state), ended.env⟩ := by
  refine ⟨andThen_assoc fuel first f g, andThen_right fuel first, ?_⟩
  intro κ S sink apart joined
  refine ⟨fun context acc a mine mf mg down env => ⟨rfl, rfl⟩, ?_⟩
  intro context acc value mf mg down env ended
  have hjoined := run_bindRight_offRight fuel sink context acc down env (f.andThen g) (mf, mg)
    value
  have hapart := run_bindRight_offRight fuel ((bindRight g).run fuel sink) context acc (mg, down)
    env f mf value
  rw [run_bindRight_offRight fuel sink context acc down env g mg value] at hapart
  exact ⟨hapart, hjoined⟩

end Stage

end Transduction
