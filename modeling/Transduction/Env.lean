import Transduction.Token
import Transduction.Dice
import Transduction.Duration
import Transduction.Failure
import Transduction.Registry.Store

/-!
# The surroundings of a run

Everything outside the accumulator that a run can read or change: the caller's state that
callbacks act on, the cancellation token, the clock, the registries, the random numbers, and the
history of what the run did that can be seen from outside.

## Main definitions

* `Event`: one entry of the history.
* `Env`: the surroundings.
* `Env.happen`: a cancellation or the passing of time.
* `Env.record`: adds to the history.

## Main results

* `Env.token_happen_of_isCancelled`: once cancelled, the token keeps its reason.
-/

namespace Transduction

/-- What a run does that can be seen from outside. -/
inductive Event where
  /-- A resource was registered. -/
  | registered (registry : RegistryId) (handle : Handle)
  /-- The disposal of a registered resource began. -/
  | disposed (registry : RegistryId) (handle : Handle)
  /-- A source handed an item to its continuation. -/
  | handed
  /-- A scheduled stage began an attempt. -/
  | attempted
  /-- A scheduled stage began to wait. -/
  | waited (delay : Duration)
  /-- The run was cancelled. -/
  | cancelled (reason : String)
  /-- A source or a scheduled stage found that the run has to stop, and failed. -/
  | stopped (failure : Failure)

/-- The surroundings of a run whose callbacks act on a state `σ`. -/
structure Env (σ : Type) where
  /-- The state that callbacks act on. -/
  user : σ
  /-- The cancellation token. -/
  token : Token
  /-- The clock, in nanoseconds. -/
  now : Nat
  /-- The registries. -/
  store : Store σ
  /-- The random numbers. -/
  dice : Dice
  /-- How many resources were opened. -/
  handles : Nat
  /-- How many identifiers were handed out. -/
  identifiers : Nat
  /-- What the run did, last event first. -/
  history : List Event

namespace Env

variable {σ : Type}

/-- The surroundings of a run that has not begun. -/
def start (user : σ) (token : Token) (dice : Dice) : Env σ where
  user := user
  token := token
  now := 0
  store := .empty
  dice := dice
  handles := 0
  identifiers := 0
  history := []

/-- Adds an event to the history. -/
def record (env : Env σ) (event : Event) : Env σ := { env with history := event :: env.history }

/-- Cancels the run; only the first cancellation is an event. -/
def cancel (env : Env σ) (reason : String) : Env σ :=
  match env.token.reason with
  | some _ => env
  | none =>
    { env with token := env.token.cancel reason, history := .cancelled reason :: env.history }

/-- Lets something happen. -/
def happen (env : Env σ) : Happening → Env σ
  | .cancel reason => env.cancel reason
  | .elapse nanos => { env with now := env.now + nanos }

/-- Lets several things happen, one after the other. -/
def happenAll (env : Env σ) (happenings : List Happening) : Env σ := happenings.foldl happen env

/-- A handle for a new resource. -/
def newHandle (env : Env σ) : Handle × Env σ :=
  (⟨env.handles⟩, { env with handles := env.handles + 1 })

/-- How often the disposal of a resource was begun. -/
def disposals (env : Env σ) (handle : Handle) : Nat :=
  env.history.countP fun
    | .disposed _ h => h = handle
    | _ => false

@[simp] theorem token_cancel (env : Env σ) (reason : String) :
    (env.cancel reason).token = env.token.cancel reason := by
  unfold cancel Token.cancel
  cases env.token.reason <;> rfl

@[simp] theorem user_record (env : Env σ) (event : Event) :
    (env.record event).user = env.user := rfl

@[simp] theorem user_cancel (env : Env σ) (reason : String) :
    (env.cancel reason).user = env.user := by
  unfold cancel
  split <;> rfl

@[simp] theorem user_happen (env : Env σ) (happening : Happening) :
    (env.happen happening).user = env.user := by
  cases happening with
  | cancel reason => exact user_cancel env reason
  | elapse nanos => rfl

@[simp] theorem user_happenAll (env : Env σ) (happenings : List Happening) :
    (env.happenAll happenings).user = env.user := by
  induction happenings generalizing env with
  | nil => rfl
  | cons happening rest ih => exact (ih (env.happen happening)).trans (env.user_happen happening)

@[simp] theorem store_happen (env : Env σ) (happening : Happening) :
    (env.happen happening).store = env.store := by
  cases happening with
  | cancel reason =>
    simp only [happen, cancel]
    split <;> rfl
  | elapse nanos => rfl

theorem token_happen_of_isCancelled {env : Env σ} {reason : String}
    (h : env.token.reason = some reason) (happening : Happening) :
    (env.happen happening).token.reason = some reason := by
  cases happening <;> simp [happen, h]

end Env

end Transduction
