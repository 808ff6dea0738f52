import Transduction.Proofs.Likeness.Basic
import Transduction.Stage.Derived

/-!
# Binding

A stage may be bound to a function that chooses another stage by each value it passes on. What
stands behind the first stage is then a sink that makes a new instance for every value and feeds it
once, in front of one common sink. So the laws of binding are statements about such sinks: bound to
fixed values a stage feeds the common sink itself, and bound twice it feeds new instances in front
of new instances, however the two bindings are grouped.

The state of the common sink is handed from each new instance to the next, while the state of the
new instance is forgotten.

## Main definitions

* `Sink.anew`: a sink that feeds a new instance for every value.
* `Visit.Chained`, `Visit.lastState`: calls of a sink that hand its state from each to the next.

## Main results

* `Stage.run_bind`: a bound stage feeds new instances.
* `Stage.visits_chained`: no state of a sink is lost, exchanged or used twice.
* `Stage.bind_laws`: the laws of binding, with what becomes of the states and the verdicts.
-/

namespace Transduction

variable {σ X ι κ S A B C D : Type}

/-- A sink that feeds a new instance of the stage chosen by each value, in front of `sink`. -/
def Sink.anew (fuel : Nat) (f : B → Stage σ X Unit C) (sink : Sink σ X κ S C) :
    Sink σ X κ S B := fun context acc value =>
  Prod.fst <$> Step.within (f value).init ((f value).run fuel sink context acc ())

/-- A new instance starts in its initial state whatever was fed before, and in front of the state
that the common sink has got to. -/
theorem Sink.anew_apply (fuel : Nat) (f : B → Stage σ X Unit C) (sink : Sink σ X κ S C)
    (context : Context) (acc : S) (value : B) (down : κ) (env : Env σ) :
    sink.anew fuel f context acc value down env =
      let fresh := (f value).run fuel sink context acc () ((f value).init, down) env
      ⟨fresh.result, fresh.state.2, fresh.env⟩ := by
  simp only [anew, map_eq_pure_bind, Step.bind_apply, Step.within]
  rcases (f value).run fuel sink context acc () ((f value).init, down) env with
    ⟨_ | verdict, state, env⟩ <;> rfl

/-- New instances that pass on fixed values do nothing to a sink. -/
theorem Sink.anew_constant (fuel : Nat) (sink : Sink σ X κ S B) :
    sink.anew fuel .constant = sink := by
  funext context acc value down env
  rw [anew_apply]
  rfl

/-! ### The state of a sink -/

namespace Visit

/-- Calls of a sink that was in the state `down` at the first of them, while each later one found
the state that the one before left. -/
def Chained (sink : Sink σ X κ S B) : κ → List (Visit σ X κ S B) → Prop
  | _, [] => True
  | down, visit :: later =>
    (∃ env, visit.ended = sink visit.context visit.acc visit.value down env) ∧
      Chained sink visit.ended.state later

/-- The state of a sink after some calls, the first of which found it in the state `down`. -/
def lastState (down : κ) : List (Visit σ X κ S B) → κ
  | [] => down
  | visit :: later => lastState visit.ended.state later

end Visit

theorem Emission.visits_chained (sink : Sink σ X κ S B) (context : Context)
    (emission : Emission σ ι B (Verdict X Unit)) (acc : S) (down : κ) :
    Visit.Chained sink down (emission.visits sink context acc down) ∧
      (emission.play sink context acc down).state.2 =
        Visit.lastState down (emission.visits sink context acc down) := by
  induction emission generalizing acc down with
  | ended e => exact ⟨trivial, rfl⟩
  | emit value state env rest ih =>
    simp only [visits, play, Visit.Chained, Visit.lastState]
    rcases hended : sink context acc value down env with ⟨_ | verdict, down', env'⟩
    · exact ⟨⟨⟨env, hended.symm⟩, trivial⟩, rfl⟩
    · cases verdict with
      | proceed acc' => exact ⟨⟨⟨env, hended.symm⟩, (ih env' acc' down').1⟩, (ih env' acc' down').2⟩
      | complete | fail | alternate => exact ⟨⟨⟨env, hended.symm⟩, trivial⟩, rfl⟩

namespace Stage

section Sinks

variable (fuel : Nat) (stage : Stage σ X A B) (f : B → Stage σ X Unit C) (context : Context)
  (acc : S) (a : A)

/-- The calls that a stage makes hand the state of the sink from each to the next, and the last
state is the one that the stage leaves behind. -/
theorem visits_chained (sink : Sink σ X κ S B) (mine : stage.State) (down : κ) (env : Env σ) :
    let visits := stage.visits fuel sink context acc a (mine, down) env
    Visit.Chained sink down visits ∧
      (stage.run fuel sink context acc a (mine, down) env).state.2 =
        Visit.lastState down visits := by
  rw [visits_eq_visits_emission, run_eq_perform]
  exact Emission.visits_chained sink context _ acc down

/-- A bound stage feeds new instances. -/
theorem run_bind (sink : Sink σ X κ S C) :
    (stage.bind f).run fuel sink = stage.run fuel (sink.anew fuel f) := rfl

/-- A fixed value that is bound to a function is the stage that the function chooses for it. -/
theorem run_constant_bind (sink : Sink σ X κ S C) (value : B) (down : κ) (env : Env σ) :
    ((constant value : Stage σ X A B).bind f).run fuel sink context acc a ((), down) env =
      let fresh := (f value).run fuel sink context acc () ((f value).init, down) env
      ⟨fresh.result, ((), fresh.state.2), fresh.env⟩ := by
  have hanew := Sink.anew_apply fuel f sink context acc value down env
  exact congrArg (fun ended : Ended σ _ _ => Ended.mk ended.result ((), ended.state) ended.env)
    hanew

end Sinks

/-- Binding to fixed values is neutral, and binding is associative: no sink, no values and no
surroundings tell the two sides apart. For one value, a fixed value that is bound to a function is a
new instance of the stage that the function chooses for it.

A bound stage feeds new instances, each one from its initial state. The state of the common sink is
handed from each of them to the next and is left behind by the last. If one of them ends the run, it
is the last one, and the bound stage ends the run in the same way. -/
theorem bind_laws (fuel : Nat) (stage : Stage σ X A B) (f : B → Stage σ X Unit C)
    (g : C → Stage σ X Unit D) :
    (stage.bind constant).Alike fuel stage (fun mine => mine) ∧
    ((stage.bind f).bind g).Alike fuel (stage.bind fun b => (f b).bind g) (fun mine => mine) ∧
    ∀ {κ S : Type} (sink : Sink σ X κ S C) (context : Context) (acc : S) (a : A) (down : κ)
      (env : Env σ),
      (∀ value,
        let bound := (constant value : Stage σ X A B).bind f
        let fresh := (f value).run fuel sink context acc () ((f value).init, down) env
        sink.anew fuel f context acc value down env =
          ⟨fresh.result, fresh.state.2, fresh.env⟩ ∧
        bound.run fuel sink context acc a ((), down) env =
          ⟨fresh.result, ((), fresh.state.2), fresh.env⟩ ∧
        bound.visits fuel sink context acc a ((), down) env =
          (f value).visits fuel sink context acc () ((f value).init, down) env) ∧
      ∀ mine,
        let visits := stage.visits fuel (sink.anew fuel f) context acc a (mine, down) env
        let ended := (stage.bind f).run fuel sink context acc a (mine, down) env
        ended = stage.run fuel (sink.anew fuel f) context acc a (mine, down) env ∧
        Visit.Chained (sink.anew fuel f) down visits ∧
        ended.state.2 = Visit.lastState down visits ∧
        ∀ (earlier later : List (Visit σ X κ S B)) (visit : Visit σ X κ S B)
          (verdict : Verdict X S), visits = earlier ++ visit :: later →
          visit.ended.result = .ok verdict → verdict.isTerminal = true →
          later = [] ∧ ended.result = .ok verdict ∧ ended.state.2 = visit.ended.state ∧
            ended.env = visit.ended.env := by
  refine ⟨?_, ?_, ?_⟩
  · refine .of_run rfl fun sink context acc a mine down env => ?_
    rw [run_bind, Sink.anew_constant]
    rfl
  · exact .of_run rfl fun sink context acc a mine down env => rfl
  · intro κ S sink context acc a down env
    refine ⟨fun value => ⟨Sink.anew_apply fuel f sink context acc value down env,
      run_constant_bind fuel f context acc a sink value down env, ?_⟩, fun mine => ?_⟩
    · rw [visits, visits, run_constant_bind]
    · have hchained := visits_chained fuel stage context acc a (sink.anew fuel f) mine down env
      refine ⟨rfl, hchained.1, hchained.2, ?_⟩
      intro earlier later visit verdict hvisits hresult hterminal
      exact run_of_terminal_visit fuel stage (sink.anew fuel f) context acc a (mine, down) env
        hvisits hresult hterminal

/-- Each number chooses how many values a new instance takes. The instance for `0` takes none and
completes, so the third number is not looked at; the common sink has counted the first one. -/
theorem bind_laws_take :
    let stage : Stage Unit Empty (List Nat) Nat := each
    let f : Nat → Stage Unit Empty Unit Nat := fun n => compose (constant n) (take n)
    let sink : Sink Unit Empty Nat Nat Nat := fun _ sum n calls env =>
      ⟨.ok (.proceed (sum + n)), calls + 1, env⟩
    let context : Context := ⟨.root (.ofNat 0), ⟨0⟩, none⟩
    let env : Env Unit := .start () .fresh ⟨id, 0⟩
    let ended := (stage.bind f).run 1 sink context 0 [1, 0, 2] ((), 0) env
    ended.result = .ok (.complete 1) ∧ ended.state.2 = 1 := by
  intro stage f sink context env ended
  let first := env.record .handed
  let second := first.record .handed
  have hvisits : stage.visits 1 (sink.anew 1 f) context 0 [1, 0, 2] ((), 0) env =
      [⟨context, 0, 1, ⟨.ok (.proceed 1), 1, first⟩⟩] ++
        ⟨context, 1, 0, ⟨.ok (.complete 1), 1, second⟩⟩ :: [] := rfl
  obtain ⟨-, hresult, hstate, -⟩ := (((bind_laws 1 stage f fun n => constant n).2.2 sink context 0
    [1, 0, 2] 0 env).2 ()).2.2.2 _ _ _ _ hvisits rfl rfl
  exact ⟨hresult, hstate⟩

end Stage

end Transduction
