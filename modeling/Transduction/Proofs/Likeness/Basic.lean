import Transduction.Proofs.Emission.Visits
import Transduction.Proofs.Fallback.Slot

/-!
# Stages that cannot be told apart

Two stages are alike if the states of their instances correspond and nothing else distinguishes
them: fed the same values in the same surroundings, instances in corresponding states call their
sink in the same way, return the same verdicts, leave the same surroundings behind and end up in
corresponding states again. It is enough that they do so for one value.

Callbacks act on the surroundings alone and may keep a record of their calls there, so stages that
are alike call them in the same order as well.

## Main definitions

* `Stage.Alike`: stages that cannot be told apart.

## Main results

* `Stage.Alike.of_run`: one value decides.
* `Stage.run_natural`: a stage in front of two sinks, one of which is an image of the other.
-/

namespace Transduction.Stage

variable {σ X κ κ' S A B : Type}

/-- Two stages that no sink, no values and no surroundings can tell apart, with `f` for the states
of the second one that correspond to those of the first one. -/
structure Alike (fuel : Nat) (stage other : Stage σ X A B) (f : stage.State → other.State) :
    Prop where
  /-- New instances correspond. -/
  init : f stage.init = other.init
  /-- For one value, corresponding instances call their sink with the same accumulators and values,
  and the calls end in the same way. -/
  visits : ∀ {κ S : Type} (sink : Sink σ X κ S B) (context : Context) (acc : S) (a : A)
    (mine : stage.State) (down : κ) (env : Env σ),
    other.visits fuel sink context acc a (f mine, down) env =
      stage.visits fuel sink context acc a (mine, down) env
  /-- For any sequence of values, corresponding instances return the same verdicts, and leave the
  same surroundings and corresponding states behind. -/
  drive : ∀ {κ S : Type} (sink : Sink σ X κ S B)
    (turns : List ((Env σ → Env σ) × Context × S × A)) (mine : stage.State) (down : κ)
    (env : Env σ),
    let driven := Sink.drive (stage.run fuel sink) turns (mine, down) env
    Sink.drive (other.run fuel sink) turns (f mine, down) env =
      (driven.1, (f driven.2.1.1, driven.2.1.2), driven.2.2)

/-- Stages that do the same with one value are alike. -/
theorem Alike.of_run {fuel : Nat} {stage other : Stage σ X A B} {f : stage.State → other.State}
    (hinit : f stage.init = other.init)
    (hrun : ∀ {κ S : Type} (sink : Sink σ X κ S B) (context : Context) (acc : S) (a : A)
      (mine : stage.State) (down : κ) (env : Env σ),
      let ended := stage.run fuel sink context acc a (mine, down) env
      other.run fuel sink context acc a (f mine, down) env =
        ⟨ended.result, (f ended.state.1, ended.state.2), ended.env⟩) :
    stage.Alike fuel other f where
  init := hinit
  visits sink context acc a mine down env := by
    rw [Stage.visits, Stage.visits, hrun]
  drive sink turns mine down env := by
    induction turns generalizing mine down env with
    | nil => rfl
    | cons turn rest ih =>
      obtain ⟨meanwhile, context, acc, a⟩ := turn
      simp only [Sink.drive, hrun]
      rw [ih]

/-- If the answers of one sink are the images of those of another, so is what a stage does in front
of them. -/
theorem run_natural (fuel : Nat) (stage : Stage σ X A B) {sink : Sink σ X κ S B}
    {sink' : Sink σ X κ' S B} (f : κ → κ') {context : Context}
    (h : ∀ acc value down env,
      let answer := sink context acc value down env
      sink' context acc value (f down) env = ⟨answer.result, f answer.state, answer.env⟩)
    (acc : S) (a : A) (mine : stage.State) (down : κ) (env : Env σ) :
    let ended := stage.run fuel sink context acc a (mine, down) env
    stage.run fuel sink' context acc a (mine, f down) env =
      ⟨ended.result, (ended.state.1, f ended.state.2), ended.env⟩ := by
  rw [run_eq_perform, run_eq_perform]
  exact Emission.play_natural f h _ acc down

end Transduction.Stage
