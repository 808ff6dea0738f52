import Transduction.Context

/-!
# Steps

A step is a computation inside a run. It reads and changes the state of the stage instances it
belongs to and the surroundings of the run, and it either gives a result or breaks off the run. A
step that breaks off keeps the changes made until then.

## Main definitions

* `Halt`: how a run breaks off.
* `Step`: computations, a monad.
* `Step.stop`: noting that the run has to stop.
* `Step.zoom`: a step on one part of a larger state.
* `Step.within`: a step with an additional state of its own.
* `Step.ensure`: a step followed by a change of the surroundings, however it ends.
* `Callback`, `Step.call`: foreign code, and running it inside a step.

## Main results

* `Step.pure_bind`, `Step.bind_pure`, `Step.bind_assoc`: the laws of the monad.
* `Step.bind_of_ok`, `Step.bind_of_error`: a sequence of steps, by how the first one ends.
* `Step.bind_eq_ok_iff`: a sequence of steps that gives a result, taken apart.
-/

namespace Transduction

/-- How a run breaks off without a verdict. -/
inductive Halt where
  /-- Foreign code ended abnormally. -/
  | panicked (message : String)
  /-- The run does not end. -/
  | endless
  deriving DecidableEq, Repr

/-- How a step ended, with the state and the surroundings it left behind. -/
structure Ended (σ κ α : Type) where
  result : Except Halt α
  state : κ
  env : Env σ

/-- A computation on a state `κ` in surroundings with a user state `σ`. -/
def Step (σ κ α : Type) : Type := κ → Env σ → Ended σ κ α

namespace Step

variable {σ κ ι α β γ : Type}

/-- Gives a result and changes nothing. -/
protected def pure (a : α) : Step σ κ α := fun state env => ⟨.ok a, state, env⟩

/-- One step after another; the second is left out if the first breaks off. -/
protected def bind (first : Step σ κ α) (next : α → Step σ κ β) : Step σ κ β := fun state env =>
  match first state env with
  | ⟨.ok a, state, env⟩ => next a state env
  | ⟨.error halt, state, env⟩ => ⟨.error halt, state, env⟩

instance : Monad (Step σ κ) where
  pure := Step.pure
  bind := Step.bind

/-- Breaks off the run. -/
def halt (reason : Halt) : Step σ κ α := fun state env => ⟨.error reason, state, env⟩

/-- Reads the state. -/
def get : Step σ κ κ := fun state env => ⟨.ok state, state, env⟩

/-- Replaces the state. -/
def set (state : κ) : Step σ κ Unit := fun _ env => ⟨.ok (), state, env⟩

/-- Reads something off the surroundings. -/
def ask (f : Env σ → α) : Step σ κ α := fun state env => ⟨.ok (f env), state, env⟩

/-- Changes the surroundings. -/
def update (f : Env σ → Env σ) : Step σ κ Unit := fun state env => ⟨.ok (), state, f env⟩

/-- Changes the surroundings and gives a result. -/
def modifyGet (f : Env σ → α × Env σ) : Step σ κ α := fun state env =>
  let (a, env) := f env
  ⟨.ok a, state, env⟩

/-- Notes that the run has to stop, and for what. -/
def stop (failure : Failure) : Step σ κ Failure := fun state env =>
  ⟨.ok failure, state, env.record (.stopped failure)⟩

/-- A step on one part of a larger state. -/
def zoom (view : κ → ι) (replace : κ → ι → κ) (step : Step σ ι α) : Step σ κ α := fun state env =>
  let ended := step (view state) env
  ⟨ended.result, replace state ended.state, ended.env⟩

/-- A step with an additional state of its own, which it starts with and gives back. -/
def within (inner : ι) (step : Step σ (ι × κ) α) : Step σ κ (α × ι) := fun state env =>
  let ended := step (inner, state) env
  ⟨ended.result.map fun a => (a, ended.state.1), ended.state.2, ended.env⟩

/-- A step on a state of its own, which is forgotten at its end. -/
def isolated (inner : ι) (step : Step σ ι α) : Step σ κ α := fun state env =>
  let ended := step inner env
  ⟨ended.result, state, ended.env⟩

/-- A step followed by a change of the surroundings, also if the step breaks off. -/
def ensure (step : Step σ κ α) (cleanUp : Env σ → Env σ) : Step σ κ α := fun state env =>
  let ended := step state env
  { ended with env := cleanUp ended.env }

/-! ### Laws -/

theorem pure_apply (a : α) (state : κ) (env : Env σ) :
    (pure a : Step σ κ α) state env = ⟨.ok a, state, env⟩ := rfl

theorem bind_apply (first : Step σ κ α) (next : α → Step σ κ β) (state : κ) (env : Env σ) :
    (first >>= next) state env =
      match first state env with
      | ⟨.ok a, state, env⟩ => next a state env
      | ⟨.error halt, state, env⟩ => ⟨.error halt, state, env⟩ := rfl

theorem bind_of_ok {first : Step σ κ α} {state state' : κ} {env env' : Env σ} {a : α}
    (h : first state env = ⟨.ok a, state', env'⟩) (next : α → Step σ κ β) :
    (first >>= next) state env = next a state' env' := by
  simp only [bind_apply, h]

theorem bind_of_error {first : Step σ κ α} {state state' : κ} {env env' : Env σ} {reason : Halt}
    (h : first state env = ⟨.error reason, state', env'⟩) (next : α → Step σ κ β) :
    (first >>= next) state env = ⟨.error reason, state', env'⟩ := by
  simp only [bind_apply, h]

theorem pure_bind (a : α) (next : α → Step σ κ β) : (pure a >>= next) = next a := rfl

theorem bind_pure (step : Step σ κ α) : (step >>= pure) = step := by
  funext state env
  rw [bind_apply]
  rcases step state env with ⟨_ | _, _, _⟩ <;> rfl

theorem bind_assoc (step : Step σ κ α) (f : α → Step σ κ β) (g : β → Step σ κ γ) :
    (step >>= f >>= g) = (step >>= fun a => f a >>= g) := by
  funext state env
  simp only [bind_apply]
  rcases step state env with ⟨_ | _, _, _⟩ <;> rfl

instance : LawfulMonad (Step σ κ) :=
  LawfulMonad.mk' _ (fun step => bind_pure step) (fun a next => pure_bind a next)
    (fun step f g => bind_assoc step f g)

/-- A sequence of steps that gives a result, taken apart. -/
theorem bind_eq_ok_iff {first : Step σ κ α} {next : α → Step σ κ β} {state state' : κ}
    {env env' : Env σ} {b : β} :
    (first >>= next) state env = ⟨.ok b, state', env'⟩ ↔
      ∃ a between amid, first state env = ⟨.ok a, between, amid⟩ ∧
        next a between amid = ⟨.ok b, state', env'⟩ := by
  constructor
  · intro h
    rcases hfirst : first state env with ⟨_ | a, between, amid⟩
    · rw [bind_of_error hfirst] at h
      cases h
    · rw [bind_of_ok hfirst] at h
      exact ⟨a, between, amid, rfl, h⟩
  · rintro ⟨a, between, amid, hfirst, hnext⟩
    rw [bind_of_ok hfirst, hnext]

theorem map_eq_ok_iff {f : α → β} {step : Step σ κ α} {state state' : κ} {env env' : Env σ}
    {b : β} :
    (f <$> step) state env = ⟨.ok b, state', env'⟩ ↔
      ∃ a, step state env = ⟨.ok a, state', env'⟩ ∧ f a = b := by
  rw [map_eq_pure_bind, bind_eq_ok_iff]
  constructor
  · rintro ⟨a, between, amid, hstep, hpure⟩
    cases hpure
    exact ⟨a, hstep, rfl⟩
  · rintro ⟨a, hstep, rfl⟩
    exact ⟨a, state', env', hstep, rfl⟩

end Step

/-! ### Callbacks -/

/-- What foreign code leaves behind: a value or the text of a panic, the state it acts on, and what
happened to the surroundings meanwhile. -/
structure Reply (σ β : Type) where
  result : Except String β
  user : σ
  happenings : List Happening

/-- Foreign code that takes a value and acts on the user state. -/
def Callback (σ α β : Type) : Type := α → σ → Reply σ β

namespace Callback

variable {σ α β γ : Type}

/-- A plain function as a callback. -/
def ofFun (f : α → β) : Callback σ α β := fun a user => ⟨.ok (f a), user, []⟩

/-- One callback after another; the second is left out if the first panics. -/
def andThen (first : Callback σ α β) (second : Callback σ β γ) : Callback σ α γ := fun a user =>
  match first a user with
  | ⟨.ok b, user, happenings⟩ =>
    let reply := second b user
    { reply with happenings := happenings ++ reply.happenings }
  | ⟨.error message, user, happenings⟩ => ⟨.error message, user, happenings⟩

/-- Prepares the argument of a callback. -/
def comap (f : α → β) (callback : Callback σ β γ) : Callback σ α γ := fun a => callback (f a)

/-- Applies a function to the value of a callback. -/
def map (f : β → γ) (callback : Callback σ α β) : Callback σ α γ := fun a user =>
  let reply := callback a user
  { reply with result := reply.result.map f }

end Callback

/-- Runs foreign code. -/
def Step.call {σ κ α β : Type} (callback : Callback σ α β) (a : α) : Step σ κ β := fun state env =>
  let reply := callback a env.user
  ⟨reply.result.mapError .panicked, state,
    ({ env with user := reply.user } : Env σ).happenAll reply.happenings⟩

@[simp] theorem Step.call_ofFun {σ κ α β : Type} (f : α → β) (a : α) :
    (Step.call (Callback.ofFun f) a : Step σ κ β) = pure (f a) := rfl

end Transduction
