import Transduction.Stage.Basic

/-!
# Repeated work inside a stage

The loops of the stages that feed their continuation several times for one value. Sources look for
a reason to stop before each item; scheduled stages look for one before each wait, and count the
attempts they may still make so that an endless schedule does not make them endless.

## Main definitions

* `feed`, `feedCount`: handing over the items of a list, and the numbers below a number.
* `drainFeed`: handing over the items of a feed.
* `Bound.reach`: where a folded value lies.
* `repeatRounds`: rounds of a scheduled stage, at most a number of them.
* `retryRound`, `foldRound`: an attempt that is looked at, and an attempt that is folded.

## Main results

* `feed_nil`, `feed_of_interrupted`, `feed_of_proceed`: one item at a time.
* `repeatRounds_of_le`: rounds that finish do not need the rest of the fuel.
* `repeatRounds_eq_logged`: rounds with a log beside their state.
-/

namespace Transduction

variable {σ X κ S A B T : Type}

/-! ### Sources -/

/-- Hands the items of a list to a sink until one verdict is terminal. -/
def feed (sink : Sink σ X κ S A) (context : Context) :
    List A → S → κ → Env σ → Ended σ κ (Verdict X S)
  | [], acc, state, env => ⟨.ok (.proceed acc), state, env⟩
  | item :: rest, acc, state, env =>
    match env.interruption? context with
    | some failure => ⟨.ok (.fail failure), state, env.record (.stopped failure)⟩
    | none =>
      match sink context acc item state (env.record .handed) with
      | ⟨.ok (.proceed acc), state, env⟩ => feed sink context rest acc state env
      | ended => ended

@[simp] theorem feed_nil (sink : Sink σ X κ S A) (context : Context) (acc : S) (state : κ)
    (env : Env σ) : feed sink context [] acc state env = ⟨.ok (.proceed acc), state, env⟩ := rfl

theorem feed_of_interrupted {context : Context} {env : Env σ} {failure : Failure}
    (h : env.interruption? context = some failure) (sink : Sink σ X κ S A) (item : A)
    (rest : List A) (acc : S) (state : κ) :
    feed sink context (item :: rest) acc state env =
      ⟨.ok (.fail failure), state, env.record (.stopped failure)⟩ := by
  simp [feed, h]

theorem feed_of_proceed {sink : Sink σ X κ S A} {context : Context} {env env' : Env σ}
    {item : A} {acc acc' : S} {state state' : κ} (h : env.interruption? context = none)
    (hsink : sink context acc item state (env.record .handed) = ⟨.ok (.proceed acc'), state', env'⟩)
    (rest : List A) :
    feed sink context (item :: rest) acc state env = feed sink context rest acc' state' env' := by
  simp [feed, h, hsink]

/-- Hands a number of consecutive numbers to a sink until one verdict is terminal. -/
def feedCount (sink : Sink σ X κ S Nat) (context : Context) :
    Nat → Nat → S → κ → Env σ → Ended σ κ (Verdict X S)
  | 0, _, acc, state, env => ⟨.ok (.proceed acc), state, env⟩
  | left + 1, next, acc, state, env =>
    match env.interruption? context with
    | some failure => ⟨.ok (.fail failure), state, env.record (.stopped failure)⟩
    | none =>
      match sink context acc next state (env.record .handed) with
      | ⟨.ok (.proceed acc), state, env⟩ => feedCount sink context left (next + 1) acc state env
      | ended => ended

/-- Hands the items of a feed to a sink until one verdict is terminal. A reason to stop is looked
for before each item and before the end of the feed; an item that is read as a failure ends the
run. -/
def drainFeed (sink : Sink σ X κ S B) (lift : A → Except Failure B) (context : Context)
    (tail : Feed.Tail) : List A → S → κ → Env σ → Ended σ κ (Verdict X S)
  | [], acc, state, env =>
    match env.interruption? context with
    | some failure => ⟨.ok (.fail failure), state, env.record (.stopped failure)⟩
    | none =>
      match tail with
      | .over => ⟨.ok (.proceed acc), state, env⟩
      | .idle reason =>
        let env := env.cancel reason
        ⟨.ok (.fail (env.interruption context)), state,
          env.record (.stopped (env.interruption context))⟩
      | .silent => ⟨.error .endless, state, env⟩
  | item :: rest, acc, state, env =>
    match env.interruption? context with
    | some failure => ⟨.ok (.fail failure), state, env.record (.stopped failure)⟩
    | none =>
      match lift item with
      | .error failure => ⟨.ok (.fail failure), state, env⟩
      | .ok value =>
        match sink context acc value state (env.record .handed) with
        | ⟨.ok (.proceed acc), state, env⟩ => drainFeed sink lift context tail rest acc state env
        | ended => ended

/-! ### Bounds -/

/-- Where a folded value lies: inside its bound, at the first value beyond it that is left out, or
at the first value beyond it that still counts. -/
inductive Reach where
  | inside
  | excluded
  | included
  deriving DecidableEq, Repr

/-- Where a folded value lies. -/
def Bound.reach (bound : Bound σ T) (folded : T) : Step σ κ Reach :=
  match bound with
  | unbounded => pure .inside
  | untilHolds test => (fun holds => if holds then .excluded else .inside) <$> Step.call test folded
  | whileHolds test => (fun holds => if holds then .inside else .included) <$> Step.call test folded

/-! ### Attempts -/

/-- Passes a value on, if there is one. -/
def deliver (sink : Sink σ X κ S B) (context : Context) (acc : S) :
    Option B → Step σ κ (Verdict X S)
  | some value => sink context acc value
  | none => pure (.proceed acc)

/-- Whether there is a value and it is accepted. -/
def isAccepted (accept : Callback σ B Bool) : Option B → Step σ κ Bool
  | some value => Step.call accept value
  | none => pure false

/-- What a scheduled stage does after an attempt: end with a result, or go on with the rest of its
schedule and a state. -/
inductive Continuation (schedule : Schedule) (T R : Type) where
  | finish (result : R)
  | again (pass : schedule.Pass) (state : T)

/-- Repeats a round until it finishes, at most a number of times. -/
def repeatRounds {R : Type} {schedule : Schedule}
    (round : schedule.Pass → T → Step σ κ (Continuation schedule T R)) :
    Nat → schedule.Pass → T → κ → Env σ → Ended σ κ R
  | 0, _, _, state, env => ⟨.error .endless, state, env⟩
  | fuel + 1, pass, current, state, env =>
    match round pass current state env with
    | ⟨.ok (.finish result), state, env⟩ => ⟨.ok result, state, env⟩
    | ⟨.ok (.again pass current), state, env⟩ => repeatRounds round fuel pass current state env
    | ⟨.error halt, state, env⟩ => ⟨.error halt, state, env⟩

theorem repeatRounds_succ {R : Type} {schedule : Schedule}
    (round : schedule.Pass → T → Step σ κ (Continuation schedule T R)) {fuel : Nat}
    {pass : schedule.Pass} {current : T} {state : κ} {env : Env σ}
    (h : (repeatRounds round fuel pass current state env).result ≠ .error .endless) :
    repeatRounds round (fuel + 1) pass current state env
      = repeatRounds round fuel pass current state env := by
  induction fuel generalizing pass current state env with
  | zero => exact absurd rfl h
  | succ n ih =>
    rw [repeatRounds] at h ⊢
    rw [repeatRounds]
    generalize round pass current state env = ended at h ⊢
    rcases ended with ⟨_ | next, _, _⟩
    · rfl
    · cases next with
      | finish result => rfl
      | again pass current => exact ih h

/-- Rounds that finish do not need the rest of the fuel. -/
theorem repeatRounds_of_le {R : Type} {schedule : Schedule}
    (round : schedule.Pass → T → Step σ κ (Continuation schedule T R)) {fuel more : Nat}
    {pass : schedule.Pass} {current : T} {state : κ} {env : Env σ} (hle : fuel ≤ more)
    (h : (repeatRounds round fuel pass current state env).result ≠ .error .endless) :
    repeatRounds round more pass current state env
      = repeatRounds round fuel pass current state env := by
  induction hle with
  | refl => rfl
  | step _ ih => rw [repeatRounds_succ round (by rw [ih]; exact h), ih]

/-- Rounds that keep a log beside their state end as the rounds without it do, if each single round
does. -/
theorem repeatRounds_eq_logged {L R : Type} {schedule : Schedule}
    {round : schedule.Pass → T → Step σ κ (Continuation schedule T R)}
    {logged : schedule.Pass → T → Step σ (L × κ) (Continuation schedule T R)}
    (h : ∀ pass current log state env, round pass current state env =
      let ended := logged pass current (log, state) env
      ⟨ended.result, ended.state.2, ended.env⟩)
    (fuel : Nat) (pass : schedule.Pass) (current : T) (log : L) (state : κ) (env : Env σ) :
    repeatRounds round fuel pass current state env =
      let ended := repeatRounds logged fuel pass current (log, state) env
      ⟨ended.result, ended.state.2, ended.env⟩ := by
  induction fuel generalizing pass current log state env with
  | zero => rfl
  | succ fuel ih =>
    rw [repeatRounds, repeatRounds, h pass current log state env]
    rcases logged pass current (log, state) env with ⟨_ | next, ⟨log', state'⟩, env'⟩
    · rfl
    · cases next with
      | finish result => rfl
      | again pass current => exact ih pass current log' state' env'

/-- Waits for the next delay of a schedule: goes on after the wait, fails if the run has to stop,
and ends with a last verdict if there are no more delays. -/
def waitOr {schedule : Schedule} (sleeper : Sleeper σ) (context : Context) (pass : schedule.Pass)
    (current : T) (exhausted : Step σ κ (Verdict X S)) :
    Step σ κ (Continuation schedule T (Verdict X S)) := do
  match ← Step.modifyGet (·.nextDelay schedule pass) with
  | none => .finish <$> exhausted
  | some (delay, pass) =>
    match ← pause sleeper context delay with
    | some failure => return .finish (.fail failure)
    | none => return .again pass current

/-- One attempt of a retried stage and what follows from it. -/
def retryRound (sink : Sink σ X κ S B) (context : Context) (acc : S) (schedule : Schedule)
    (sleeper : Sleeper σ) (accept : Callback σ B Bool) (attempt : Step σ κ (Verdict X (Option B)))
    (pass : schedule.Pass) : Step σ κ (Continuation schedule Unit (Verdict X S)) := do
  Step.update (·.record .attempted)
  match ← attempt with
  | .fail failure => return .finish (.fail failure)
  | .alternate value => return .finish (.alternate value)
  | .complete produced => .finish <$> Verdict.completed <$> deliver sink context acc produced
  | .proceed produced =>
    if ← isAccepted accept produced then .finish <$> deliver sink context acc produced
    else waitOr sleeper context pass () (deliver sink context acc produced)

/-- One attempt of a scheduled fold and what follows from it. -/
def foldRound (sink : Sink σ X κ S T) (context : Context) (acc : S) (schedule : Schedule)
    (sleeper : Sleeper σ) (f : Callback σ (T × B) T) (bound : Bound σ T)
    (attempt : Step σ κ (Verdict X (Option B))) (pass : schedule.Pass) (current : T) :
    Step σ κ (Continuation schedule T (Verdict X S)) := do
  Step.update (·.record .attempted)
  let after (isLast : Bool) (current : T) : Step σ κ (Continuation schedule T (Verdict X S)) :=
    if isLast then .finish <$> Verdict.completed <$> sink context acc current
    else waitOr sleeper context pass current (sink context acc current)
  let folding (isLast : Bool) : Option B → Step σ κ (Continuation schedule T (Verdict X S))
    | none => after isLast current
    | some value => do
      let folded ← Step.call f (current, value)
      match ← bound.reach folded with
      | .excluded => .finish <$> sink context acc current
      | .included => .finish <$> sink context acc folded
      | .inside => after isLast folded
  match ← attempt with
  | .fail failure => return .finish (.fail failure)
  | .alternate value => return .finish (.alternate value)
  | .proceed produced => folding false produced
  | .complete produced => folding true produced

end Transduction
