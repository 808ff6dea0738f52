import Transduction.Stage.Run

/-!
# Emissions

What a stage does with one value does not depend on the sink it feeds, except for when the sink
stops the run and for what the sink does to the surroundings. An emission keeps exactly this much:
it ends, or it emits a value and goes on from the surroundings that the sink leaves behind, provided
the sink asks for more. The accumulator and the state of the sink do not occur in it, so an emission
cannot lose, exchange or repeat them.

## Main definitions

* `Emission`: the values emitted one after the other, each with the state to stop in.
* `Emission.play`: an emission into a sink.
* `Emitter`: a step that may emit values, a monad; `Emitter.lift`, `Emitter.emit`.
* `Emitter.perform`: an emitter as a step in front of a sink.

## Main results

* `Emission.play_natural`: playing into two sinks of which one is an image of the other.
* `Emission.play_through`: playing what two stages emit one behind the other.
* `Emission.play_bind`: playing into a relay tells what an emission does from what the sink does.
* `Emitter.perform_lift_bind`, `Emitter.perform_emit`: the steps of an emitter in front of a sink.
-/

namespace Transduction

variable {σ X ι κ κ' δ S A B C α β : Type}

/-- What a stage instance with a state `ι` does with one value, up to the answers of the sink. -/
inductive Emission (σ ι B α : Type) where
  /-- Nothing more is emitted. -/
  | ended (ended : Ended σ ι α)
  /-- A value is emitted. If the sink stops the run, the instance stays in the given state;
  otherwise it goes on from the surroundings that the sink left behind. -/
  | emit (value : B) (state : ι) (env : Env σ) (next : Env σ → Emission σ ι B α)

/-- A step of a stage itself, seen with what is downstream of it. -/
def Sink.above (step : Step σ ι α) : Step σ (ι × κ) α :=
  Step.zoom Prod.fst (fun state mine => (mine, state.2)) step

theorem Sink.below_bind (step : Step σ κ α) (next : α → Step σ κ β) :
    (Sink.below (step >>= next) : Step σ (ι × κ) β) =
      Sink.below step >>= fun a => Sink.below (next a) := by
  funext state env
  simp only [Sink.below, Step.zoom, Step.bind_apply]
  rcases step state.2 env with ⟨_ | a, down, env⟩ <;> rfl

theorem Sink.above_bind (step : Step σ ι α) (next : α → Step σ ι β) :
    (Sink.above (step >>= next) : Step σ (ι × κ) β) =
      Sink.above step >>= fun a => Sink.above (next a) := by
  funext state env
  simp only [Sink.above, Step.zoom, Step.bind_apply]
  rcases step state.1 env with ⟨_ | a, mine, env⟩ <;> rfl

theorem Sink.below_map (f : α → β) (step : Step σ κ α) :
    (Sink.below (f <$> step) : Step σ (ι × κ) β) = f <$> Sink.below step := by
  simp only [map_eq_pure_bind]
  exact Sink.below_bind step _

theorem Step.isolated_bind (step : Step σ Unit α) (next : α → Step σ Unit β) :
    (Step.isolated () (step >>= next) : Step σ κ β) =
      Step.isolated () step >>= fun a => Step.isolated () (next a) := by
  funext state env
  simp only [Step.isolated, Step.bind_apply]
  rcases step () env with ⟨_ | a, _, env⟩ <;> rfl

/-- Prepares the values of a sink. -/
def Sink.comap (f : A → B) (sink : Sink σ X κ S B) : Sink σ X κ S A := fun context acc a =>
  sink context acc (f a)

namespace Emission

/-- One emission after another, which starts where the first one ended. -/
protected def bind : Emission σ ι B α → (α → ι → Env σ → Emission σ ι B β) → Emission σ ι B β
  | ended ⟨.ok a, state, env⟩, next => next a state env
  | ended ⟨.error halt, state, env⟩, _ => ended ⟨.error halt, state, env⟩
  | emit value state env rest, next => emit value state env fun env => (rest env).bind next

/-- Changes the states of an emission. -/
def mapState (f : ι → δ) : Emission σ ι B α → Emission σ δ B α
  | ended e => ended ⟨e.result, f e.state, e.env⟩
  | emit value state env rest => emit value (f state) env fun env => (rest env).mapState f

/-- Changes the emitted values. -/
def mapValue (f : B → C) : Emission σ ι B α → Emission σ ι C α
  | ended e => ended e
  | emit value state env rest => emit (f value) state env fun env => (rest env).mapValue f

/-- One emission after another that asked for more. -/
def andProceed (first : Emission σ ι B (Verdict X Unit))
    (next : ι → Env σ → Emission σ ι B (Verdict X Unit)) : Emission σ ι B (Verdict X Unit) :=
  first.bind fun
    | .proceed _, state, env => next state env
    | verdict, state, env => ended ⟨.ok verdict, state, env⟩

/-- Feeds what one emission emits to an instance with a state of its own, whose emissions take the
place of the values. -/
def through (next : B → δ → Env σ → Emission σ δ C (Verdict X Unit)) :
    Emission σ ι B (Verdict X Unit) → δ → Emission σ (ι × δ) C (Verdict X Unit)
  | ended e, down => ended ⟨e.result, (e.state, down), e.env⟩
  | emit value state env rest, down =>
    ((next value down env).mapState (state, ·)).andProceed fun state env =>
      (rest env).through next state.2

/-- An emission into a sink: the accumulator goes from each call of the sink to the next, and the
first verdict that is terminal is the outcome. -/
def play (sink : Sink σ X κ S B) (context : Context) :
    Emission σ ι B (Verdict X Unit) → S → κ → Ended σ (ι × κ) (Verdict X S)
  | ended e, acc, down => ⟨e.result.map (·.map fun _ => acc), (e.state, down), e.env⟩
  | emit value state env rest, acc, down =>
    match sink context acc value down env with
    | ⟨.ok (.proceed acc), down, env⟩ => (rest env).play sink context acc down
    | ⟨result, down, env⟩ => ⟨result, (state, down), env⟩

/-- The sink for the inputs of an instance, from the sink for what the instance emits. -/
def sinkInto (next : Context → A → ι → Env σ → Emission σ ι B (Verdict X Unit))
    (sink : Sink σ X κ S B) : Sink σ X (ι × κ) S A := fun context acc a state env =>
  (next context a state.1 env).play sink context acc state.2

/-! ### Playing -/

section Play

variable (sink : Sink σ X κ S B) (context : Context)

theorem play_mapState (f : ι → δ) (emission : Emission σ ι B (Verdict X Unit)) (acc : S)
    (down : κ) : (emission.mapState f).play sink context acc down =
      let played := emission.play sink context acc down
      ⟨played.result, (f played.state.1, played.state.2), played.env⟩ := by
  induction emission generalizing acc down with
  | ended e => rfl
  | emit value state env rest ih =>
    simp only [mapState, play]
    rcases sink context acc value down env with ⟨_ | verdict, down, env⟩
    · rfl
    · cases verdict with
      | proceed acc => exact ih env acc down
      | complete | fail | alternate => rfl

theorem play_mapValue (f : A → B) (emission : Emission σ ι A (Verdict X Unit)) (acc : S)
    (down : κ) : (emission.mapValue f).play sink context acc down =
      emission.play (sink.comap f) context acc down := by
  induction emission generalizing acc down with
  | ended e => rfl
  | emit value state env rest ih =>
    simp only [mapValue, play, Sink.comap]
    rcases sink context acc (f value) down env with ⟨_ | verdict, down, env⟩
    · rfl
    · cases verdict with
      | proceed acc => exact ih env acc down
      | complete | fail | alternate => rfl

/-- If the answers of one sink are the images of those of another, so is what is played. -/
theorem play_natural {sink : Sink σ X κ S B} {sink' : Sink σ X κ' S B} (f : κ → κ')
    {context : Context} (h : ∀ acc value down env,
      let answer := sink context acc value down env
      sink' context acc value (f down) env = ⟨answer.result, f answer.state, answer.env⟩)
    (emission : Emission σ ι B (Verdict X Unit)) (acc : S) (down : κ) :
    emission.play sink' context acc (f down) =
      let played := emission.play sink context acc down
      ⟨played.result, (played.state.1, f played.state.2), played.env⟩ := by
  induction emission generalizing acc down with
  | ended e => rfl
  | emit value state env rest ih =>
    simp only [play, h acc value down env]
    rcases sink context acc value down env with ⟨_ | verdict, down, env⟩
    · rfl
    · cases verdict with
      | proceed acc => exact ih env acc down
      | complete | fail | alternate => rfl

theorem play_andProceed (emission : Emission σ ι B (Verdict X Unit))
    (next : ι → Env σ → Emission σ ι B (Verdict X Unit)) (acc : S) (down : κ) :
    (emission.andProceed next).play sink context acc down =
      match emission.play sink context acc down with
      | ⟨.ok (.proceed acc), state, env⟩ => (next state.1 env).play sink context acc state.2
      | stopped => stopped := by
  induction emission generalizing acc down with
  | ended e =>
    rcases e with ⟨_ | verdict, state, env⟩
    · rfl
    · cases verdict <;> rfl
  | emit value state env rest ih =>
    simp only [andProceed, Emission.bind, play]
    rcases sink context acc value down env with ⟨_ | verdict, down, env⟩
    · rfl
    · cases verdict with
      | proceed acc => exact ih env acc down
      | complete | fail | alternate => rfl

/-- Playing the emissions of a second instance in the place of values is playing the values into
the sink that the second instance makes of the sink. -/
theorem play_through (next : Context → A → δ → Env σ → Emission σ δ B (Verdict X Unit))
    (emission : Emission σ ι A (Verdict X Unit)) (acc : S) (state : δ) (down : κ) :
    (emission.through (next context) state).play sink context acc down =
      let played := emission.play (sinkInto next sink) context acc (state, down)
      ⟨played.result, ((played.state.1, played.state.2.1), played.state.2.2), played.env⟩ := by
  induction emission generalizing acc state down with
  | ended e => rfl
  | emit value stop env rest ih =>
    simp only [through, play, play_andProceed, play_mapState, sinkInto]
    rcases (next context value state env).play sink context acc down with
      ⟨_ | verdict, ⟨state, down⟩, env⟩
    · rfl
    · cases verdict with
      | proceed acc => exact ih env acc state down
      | complete | fail | alternate => rfl

/-- What comes after an emission starts from the accumulator that a relay is left holding, and is
left out if the relay was stopped. -/
theorem play_bind (emission : Emission σ ι B (Verdict X Unit))
    (next : Verdict X Unit → ι → Env σ → Emission σ ι B (Verdict X Unit)) (acc : S) (down : κ) :
    (emission.bind next).play sink context acc down =
      match emission.play (relay sink) context () (.holding acc, down) with
      | ⟨.ok outcome, (state, .holding acc, down), env⟩ =>
        (next outcome state env).play sink context acc down
      | ⟨.ok _, (state, .stopped verdict, down), env⟩ => ⟨.ok verdict, (state, down), env⟩
      | ⟨.error halt, (state, _, down), env⟩ => ⟨.error halt, (state, down), env⟩ := by
  induction emission generalizing acc down with
  | ended e =>
    rcases e with ⟨_ | verdict, state, env⟩
    · rfl
    · cases verdict <;> rfl
  | emit value state env rest ih =>
    simp only [Emission.bind, play, relay, Step.bind_apply, Sink.own, Sink.below, Step.zoom]
    rcases sink context acc value down env with ⟨_ | verdict, down, env⟩
    · rfl
    · cases verdict with
      | proceed acc => exact ih env acc down
      | complete | fail | alternate => rfl

end Play

end Emission

/-! ### Emitters -/

/-- A step that may emit values. -/
def Emitter (σ ι B α : Type) : Type := ι → Env σ → Emission σ ι B α

namespace Emitter

instance : Monad (Emitter σ ι B) where
  pure a := fun state env => .ended ⟨.ok a, state, env⟩
  bind first next := fun state env => (first state env).bind next

/-- A step that emits nothing. -/
def lift (step : Step σ ι α) : Emitter σ ι B α := fun state env => .ended (step state env)

/-- Emits a value, and asks for more if the sink does. -/
def emit (value : B) : Emitter σ ι B (Verdict X Unit) := fun state env =>
  .emit value state env fun env => .ended ⟨.ok (.proceed ()), state, env⟩

/-- One emitter after another that asked for more. -/
def andProceed (first next : Emitter σ ι B (Verdict X Unit)) : Emitter σ ι B (Verdict X Unit) :=
  fun state env => (first state env).andProceed next

/-- Changes the emitted values. -/
def mapValue (f : B → C) (emitter : Emitter σ ι B α) : Emitter σ ι C α := fun state env =>
  (emitter state env).mapValue f

/-- An emitter on a state of its own, which is forgotten at its end. -/
def isolated (inner : ι) (emitter : Emitter σ ι B α) : Emitter σ κ B α := fun state env =>
  (emitter inner env).mapState fun _ => state

/-- An emitter whose values are fed to an instance behind it. -/
def through (first : Emitter σ ι B (Verdict X Unit))
    (next : B → Emitter σ δ C (Verdict X Unit)) : Emitter σ (ι × δ) C (Verdict X Unit) :=
  fun state env => (first state.1 env).through next state.2

/-- An emitter on one part of a larger state. -/
def zoom (view : κ → ι) (replace : κ → ι → κ) (emitter : Emitter σ ι B α) : Emitter σ κ B α :=
  fun state env => (emitter (view state) env).mapState (replace state)

/-- An emitter as a step in front of a sink. -/
def perform (emitter : Emitter σ ι B (Verdict X Unit)) (sink : Sink σ X κ S B) (context : Context)
    (acc : S) : Step σ (ι × κ) (Verdict X S) := fun state env =>
  (emitter state.1 env).play sink context acc state.2

variable (sink : Sink σ X κ S B) (context : Context) (acc : S)

theorem perform_lift_bind (step : Step σ ι α) (next : α → Emitter σ ι B (Verdict X Unit)) :
    (lift step >>= next).perform sink context acc =
      Sink.above step >>= fun a => (next a).perform sink context acc := by
  funext state env
  simp only [Step.bind_apply, Sink.above, Step.zoom]
  change ((Emission.ended (step state.1 env)).bind next).play sink context acc state.2 = _
  rcases step state.1 env with ⟨_ | a, mine, env⟩
  · rfl
  · rfl

theorem perform_emit (value : B) :
    (emit value : Emitter σ ι B (Verdict X Unit)).perform sink context acc =
      Sink.below (sink context acc value) := by
  funext state env
  simp only [perform, emit, Emission.play, Sink.below, Step.zoom]
  rcases sink context acc value state.2 env with ⟨_ | verdict, down, env⟩
  · rfl
  · cases verdict <;> rfl

/-- A stage that never asks for more after a value. -/
theorem perform_completed_emit (value : B) :
    (Verdict.completed <$> emit value : Emitter σ ι B (Verdict X Unit)).perform sink context acc =
      Verdict.completed <$> Sink.below (sink context acc value) := by
  funext state env
  change Emission.play sink context
    (.emit value state.1 env fun env => .ended ⟨.ok (.complete ()), state.1, env⟩) acc state.2 = _
  simp only [map_eq_pure_bind, Step.bind_apply, Emission.play, Sink.below, Step.zoom]
  rcases sink context acc value state.2 env with ⟨_ | verdict, down, env⟩
  · rfl
  · cases verdict <;> rfl

theorem perform_andProceed (first next : Emitter σ ι B (Verdict X Unit)) (state : ι × κ)
    (env : Env σ) : (first.andProceed next).perform sink context acc state env =
      match first.perform sink context acc state env with
      | ⟨.ok (.proceed acc), state, env⟩ => next.perform sink context acc state env
      | stopped => stopped :=
  Emission.play_andProceed sink context _ _ acc state.2

theorem perform_mapValue {sink : Sink σ X κ S C} (f : B → C)
    (emitter : Emitter σ ι B (Verdict X Unit)) :
    (emitter.mapValue f).perform sink context acc =
      emitter.perform (sink.comap f) context acc := by
  funext state env
  exact Emission.play_mapValue sink context f _ acc state.2

theorem perform_zoom (view : δ → ι) (replace : δ → ι → δ)
    (emitter : Emitter σ ι B (Verdict X Unit)) :
    (emitter.zoom view replace).perform sink context acc =
      Step.zoom (fun state => (view state.1, state.2))
        (fun old state => (replace old.1 state.1, state.2))
        (emitter.perform sink context acc) := by
  funext state env
  exact Emission.play_mapState sink context (replace state.1) _ acc state.2

/-- An emitter on an instance of its own, which starts in a given state. -/
theorem within_perform (inner : ι) (emitter : Emitter σ ι B (Verdict X Unit)) (down : κ)
    (env : Env σ) :
    (Prod.fst <$> Step.within inner (emitter.perform sink context acc)) down env =
      let played := (emitter.isolated inner () env).play sink context acc down
      ⟨played.result, played.state.2, played.env⟩ := by
  simp only [isolated, Emission.play_mapState, map_eq_pure_bind, Step.bind_apply, Step.within,
    perform]
  rcases (emitter inner env).play sink context acc down with ⟨_ | verdict, state, env⟩ <;> rfl

end Emitter

end Transduction
