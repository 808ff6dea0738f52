import Transduction.Proofs.Emission.Visits
import Transduction.Stage.Collect

/-!
# The first value of a run

A run that collects everything and a run that stops at the first value are the same up to the first
value, because a stage cannot see the accumulator or what its sink does with it. So the second run
yields the head of what the first one delivers, even if the first one fails afterwards.

## Main definitions

* `Stage.deliveries`: the values that a collecting run hands to its sink, however it ends.

## Main results

* `Emission.toList_collected`: collecting gives back exactly the deliveries.
* `Stage.first_eq_head`: stopping at the first value yields the first delivery.
-/

namespace Transduction

variable {σ X ι A B : Type}

namespace Stage

/-- The values that a collecting run in a given context hands to its sink, in order and whether or
not the run yields them in the end. -/
def deliveries (fuel : Nat) (stage : Stage σ X A B) (context : Context) (input : A) (env : Env σ) :
    List B :=
  (stage.visits fuel Sink.all context #[] input (stage.init, ()) env).map (·.value)

end Stage

/-- A collecting run that does not fail has collected its deliveries. -/
theorem Emission.toList_collected (emission : Emission σ ι B (Verdict X Unit)) (context : Context)
    (acc : Array B) {verdict : Verdict X (Array B)} {values : Array B}
    (hresult : (emission.play Sink.all context acc ()).result = .ok verdict)
    (hvalues : verdict.acc? = some values) :
    values.toList = acc.toList ++ (emission.visits Sink.all context acc ()).map (·.value) := by
  induction emission generalizing acc with
  | ended e =>
    rcases e with ⟨_ | given, state, env⟩
    · cases hresult
    · obtain rfl : given.map (fun _ => acc) = verdict := Except.ok.inj hresult
      have hacc : values = acc := by
        cases given with
        | proceed | complete => exact (Option.some.inj hvalues).symm
        | fail | alternate => cases hvalues
      rw [hacc, visits, List.map_nil, List.append_nil]
  | emit value state env rest ih =>
    have hrest := ih env (acc.push value) hresult
    rw [hrest, Array.toList_push, List.append_assoc]
    rfl

namespace Stage

variable [TypeNamed X] (fuel : Nat) (stage : Stage σ X A B) (input : A) (env : Env σ)

theorem firstIn_eq_headIn (context : Context) :
    (stage.firstIn fuel context input env).1 =
      match stage.deliveries fuel context input env with
      | [] => (stage.collectIn fuel context input env).1
      | value :: _ => .ok (.one value) := by
  simp only [firstIn, collectIn, runIn, Step.ensure, deliveries, visits_eq_visits_emission,
    run_eq_perform, Emitter.perform]
  -- Both runs play one emission, so they agree unless it emits something.
  cases stage.emission fuel context input stage.init env with
  | emit value state env rest => rfl
  | ended e =>
    rcases e with ⟨_ | verdict, state, env⟩
    · rfl
    · cases verdict <;> rfl

/-- Stopping at the first value yields the first delivery of the collecting run from the same
surroundings, whatever comes after it there. If nothing is delivered, both runs yield the same. This
holds for runs in a given context and for runs in a context of their own. -/
theorem first_eq_head :
    (∀ context, (stage.firstIn fuel context input env).1 =
      match stage.deliveries fuel context input env with
      | [] => (stage.collectIn fuel context input env).1
      | value :: _ => .ok (.one value)) ∧
    (stage.first fuel input env).1 =
      match stage.deliveries fuel (env.openContext none).1 input (env.openContext none).2 with
      | [] => (stage.collect fuel input env).1
      | value :: _ => .ok (.one value) :=
  ⟨firstIn_eq_headIn fuel stage input env,
    firstIn_eq_headIn fuel stage input (env.openContext none).2 (env.openContext none).1⟩

/-- The second number makes the collecting run panic; the other run does not get there. -/
example : let stage : Stage Unit X (List Nat) Nat := compose each (map fun n user =>
      ⟨if n = 2 then .error "two" else .ok n, user, []⟩)
    let env : Env Unit := .start () .fresh ⟨id, 0⟩
    (stage.collect 1 [1, 2] env).1 = .error (.panicked "two") ∧
      (stage.first 1 [1, 2] env).1 = .ok (.one 1) := ⟨rfl, rfl⟩

end Stage

end Transduction
