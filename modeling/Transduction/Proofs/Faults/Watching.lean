import Transduction.Proofs.Faults.Incidents

/-!
# Watching a run

A run is watched by watching each of its steps. Where a stage fails or stops on an alternate value
by itself, an incident is raised: for a failure that a stage is told to fail with, a resource that
cannot be opened, an item that is read as a failure, a reason to stop, a failure that arrives where
a value is expected, a left value that is not expected, and a scope that nothing comes out of. A
stage that only passes on the verdict of something inside it raises nothing of its own.

Watching does not change a run: a watched stage does what the stage does.

## Main definitions

* `Sink.watched`: a sink that raises what its verdicts speak of.
* `Watched.feed`, `Watched.drainFeed`, `Watched.repeatRounds` and the like: watched loops.
* `Stage.watch`: a watched stage.
* `Watched.Watches`, `WatchedSink.Watches`: doing what a step, or a sink, does.

## Main results

* `Watched.Watches.bind`, `Watched.Watches.repeatRounds`, `WatchedSink.Watches.drainFeed` and the
  like: watching the parts of a step and watching the step.
* `Stage.watches_run`: a watched stage does what the stage does.
-/

namespace Transduction

variable {σ X ι κ S A B T α β : Type}

/-- A sink that raises what its verdicts speak of. -/
def Sink.watched (sink : Sink σ X κ S A) : WatchedSink σ X κ S A := fun context acc a =>
  ⟨sink context acc a, fun state env =>
    (incidentOf Verdict.incident? (sink context acc a state env).result).toList⟩

namespace Watched

/-! ### Sources -/

/-- Fails if there is a reason to stop, and goes on otherwise. -/
def unlessInterrupted (context : Context) (next : Watched σ X κ (Verdict X S)) :
    Watched σ X κ (Verdict X S) := do
  match ← lift (Step.ask (·.interruption? context)) with
  | some failure =>
    lift (Step.update (·.record (.stopped failure)))
    fail failure
  | none => next

/-- Hands an item to a sink, and goes on if the sink asks for more. -/
def hand (sink : WatchedSink σ X κ S A) (context : Context) (item : A) (acc : S)
    (rest : S → Watched σ X κ (Verdict X S)) : Watched σ X κ (Verdict X S) := do
  lift (Step.update (·.record .handed))
  match ← sink context acc item with
  | .proceed acc => rest acc
  | verdict => return verdict

/-- Hands the items of a list to a watched sink. -/
def feed (sink : WatchedSink σ X κ S A) (context : Context) :
    List A → S → Watched σ X κ (Verdict X S)
  | [], acc => pure (.proceed acc)
  | item :: rest, acc =>
    unlessInterrupted context (hand sink context item acc (feed sink context rest))

/-- Hands a number of consecutive numbers to a watched sink. -/
def feedCount (sink : WatchedSink σ X κ S Nat) (context : Context) :
    Nat → Nat → S → Watched σ X κ (Verdict X S)
  | 0, _, acc => pure (.proceed acc)
  | left + 1, next, acc =>
    unlessInterrupted context (hand sink context next acc (feedCount sink context left (next + 1)))

/-- Comes to the end of the items of a feed. -/
def finishFeed (context : Context) (acc : S) : Feed.Tail → Watched σ X κ (Verdict X S)
  | .over => pure (.proceed acc)
  | .idle reason => do
    lift (Step.update (·.cancel reason))
    let failure ← lift (Step.ask (·.interruption context))
    lift (Step.update (·.record (.stopped failure)))
    fail failure
  | .silent => lift (Step.halt .endless)

/-- Hands the items of a feed to a watched sink. -/
def drainFeed (sink : WatchedSink σ X κ S B) (read : A → Except Failure B) (context : Context)
    (tail : Feed.Tail) : List A → S → Watched σ X κ (Verdict X S)
  | [], acc => unlessInterrupted context (finishFeed context acc tail)
  | item :: rest, acc => unlessInterrupted context <|
    match read item with
    | .error failure => fail failure
    | .ok value => hand sink context value acc (drainFeed sink read context tail rest)

/-! ### Scheduled stages -/

/-- Passes a value on, if there is one. -/
def deliver (sink : WatchedSink σ X κ S B) (context : Context) (acc : S) :
    Option B → Watched σ X κ (Verdict X S)
  | some value => sink context acc value
  | none => pure (.proceed acc)

/-- Repeats a watched round until it finishes, at most a number of times. -/
def repeatRounds {R : Type} {schedule : Schedule}
    (round : schedule.Pass → T → Watched σ X κ (Continuation schedule T R)) :
    Nat → schedule.Pass → T → Watched σ X κ R
  | 0, _, _ => lift (Step.halt .endless)
  | fuel + 1, pass, current => do
    match ← round pass current with
    | .finish result => return result
    | .again pass current => repeatRounds round fuel pass current

/-- Waits for the next delay of a schedule, and fails if the run has to stop. -/
def waitOr {schedule : Schedule} (sleeper : Sleeper σ) (context : Context) (pass : schedule.Pass)
    (current : T) (exhausted : Watched σ X κ (Verdict X S)) :
    Watched σ X κ (Continuation schedule T (Verdict X S)) := do
  match ← lift (Step.modifyGet (·.nextDelay schedule pass)) with
  | none => .finish <$> exhausted
  | some (delay, pass) =>
    match ← lift (pause sleeper context delay) with
    | some failure => .finish <$> fail failure
    | none => return .again pass current

/-- One watched attempt of a retried stage and what follows from it. -/
def retryRound (sink : WatchedSink σ X κ S B) (context : Context) (acc : S) (schedule : Schedule)
    (sleeper : Sleeper σ) (accept : Callback σ B Bool)
    (attempt : Watched σ X κ (Verdict X (Option B))) (pass : schedule.Pass) :
    Watched σ X κ (Continuation schedule Unit (Verdict X S)) := do
  lift (Step.update (·.record .attempted))
  match ← attempt with
  | .fail failure => return .finish (.fail failure)
  | .alternate value => return .finish (.alternate value)
  | .complete produced => .finish <$> Verdict.completed <$> deliver sink context acc produced
  | .proceed produced =>
    if ← lift (isAccepted accept produced) then .finish <$> deliver sink context acc produced
    else waitOr sleeper context pass () (deliver sink context acc produced)

/-- One watched attempt of a scheduled fold and what follows from it. -/
def foldRound (sink : WatchedSink σ X κ S T) (context : Context) (acc : S) (schedule : Schedule)
    (sleeper : Sleeper σ) (f : Callback σ (T × B) T) (bound : Bound σ T)
    (attempt : Watched σ X κ (Verdict X (Option B))) (pass : schedule.Pass) (current : T) :
    Watched σ X κ (Continuation schedule T (Verdict X S)) := do
  lift (Step.update (·.record .attempted))
  let after (isLast : Bool) (current : T) : Watched σ X κ (Continuation schedule T (Verdict X S)) :=
    if isLast then .finish <$> Verdict.completed <$> sink context acc current
    else waitOr sleeper context pass current (sink context acc current)
  let folding (isLast : Bool) : Option B → Watched σ X κ (Continuation schedule T (Verdict X S))
    | none => after isLast current
    | some value => do
      let folded ← call f (current, value)
      match ← lift (bound.reach folded) with
      | .excluded => .finish <$> sink context acc current
      | .included => .finish <$> sink context acc folded
      | .inside => after isLast folded
  match ← attempt with
  | .fail failure => return .finish (.fail failure)
  | .alternate value => return .finish (.alternate value)
  | .proceed produced => folding false produced
  | .complete produced => folding true produced

/-! ### Alternatives and scopes -/

/-- The watched sink of the first of two alternatives. -/
def relay (sink : WatchedSink σ X κ S B) : WatchedSink σ X (Parked X S × κ) Unit B :=
  fun context _ value => do
    match ← lift Sink.own with
    | .stopped _ => return .complete ()
    | .holding acc =>
      match ← (sink context acc value).below with
      | .proceed acc =>
        lift (Sink.setOwn (.holding acc))
        return .proceed ()
      | verdict =>
        lift (Sink.setOwn (.stopped verdict))
        return .complete ()

/-- What follows from the outcome of the first of two watched alternatives. -/
def settleChoice (outcome : Verdict X Unit) (parked : Parked X S)
    (second : S → Watched σ X ι (Verdict X S)) : Watched σ X ι (Verdict X S) :=
  match parked, outcome with
  | .stopped verdict, _ => pure verdict
  | .holding acc, .proceed _ => pure (.proceed acc)
  | .holding acc, .complete _ => pure (.complete acc)
  | .holding _, .alternate value => pure (.alternate value)
  | .holding acc, .fail _ => second acc

/-- A watched step in a scope of its own. -/
def inScope (context : Context) (watched : Context → Watched σ X κ α) : Watched σ X κ α := do
  let nested ← lift (Step.modifyGet (·.nestedContext context))
  (watched nested).ensure fun env =>
    ((env.clean nested.registry).2).dropRegistry nested.registry

end Watched

/-! ### Stages -/

open Watched (lift call fail alternate) in
/-- The watched sink for the inputs of a stage, from the watched sink for its outputs. -/
def Stage.watch (fuel : Nat) : {A B : Type} → (stage : Stage σ X A B) → {κ S : Type} →
    WatchedSink σ X κ S B → WatchedSink σ X (stage.State × κ) S A
  | _, _, identity, _, _, sink => fun context acc a => (sink context acc a).below
  | _, _, map f, _, _, sink => fun context acc a => do
    let b ← call f a
    (sink context acc b).below
  | _, _, filter test, _, _, sink => fun context acc a => do
    if ← call test a then (sink context acc a).below else return .proceed acc
  | _, _, filterMap f, _, _, sink => fun context acc a => do
    match ← call f a with
    | some b => (sink context acc b).below
    | none => return .proceed acc
  | _, _, inspect look, _, _, sink => fun context acc a => do
    call look a
    (sink context acc a).below
  | _, _, constant b, _, _, sink => fun context acc _ => (sink context acc b).below
  | _, _, compose first second, _, _, sink => fun context acc a =>
    (first.watch fuel (second.watch fuel sink) context acc a).zoom
      (fun state => (state.1.1, (state.1.2, state.2)))
      (fun _ state => ((state.1, state.2.1), state.2.2))
  | _, _, take _, _, _, sink => fun context acc a => do
    let remaining : Nat ← lift Sink.own
    match remaining with
    | 0 => return .complete acc
    | left + 1 =>
      lift (Sink.setOwn left)
      (sink context acc a).below
  | _, _, takeWhen answer test, _, _, sink => fun context acc a => do
    if (← call test a) = answer then (sink context acc a).below else return .complete acc
  | _, _, skip _, _, _, sink => fun context acc a => do
    let remaining : Nat ← lift Sink.own
    match remaining with
    | 0 => (sink context acc a).below
    | left + 1 =>
      lift (Sink.setOwn left)
      return .proceed acc
  | _, _, skipWhen answer test, _, _, sink => fun context acc a => do
    let skipping : Bool ← lift Sink.own
    if skipping then
      if (← call test a) = answer then return .proceed acc
      else
        lift (Sink.setOwn false)
        (sink context acc a).below
    else (sink context acc a).below
  | _, _, fold _ f bound, _, _, sink => fun context acc a => do
    let folded ← call f (← lift Sink.own, a)
    match ← lift (bound.reach folded) with
    | .excluded => return .complete acc
    | .included =>
      lift (Sink.setOwn folded)
      Verdict.completed <$> (sink context acc folded).below
    | .inside =>
      lift (Sink.setOwn folded)
      (sink context acc folded).below
  | _, _, choice first second, _, _, sink => fun context acc a => do
    let (outcome, parked) ← ((first.watch fuel (Watched.relay sink) context () a).zoom
      (fun state => (state.2.1.1, (state.1, state.2.2)))
      (fun old state => (state.2.1, ((state.1, old.2.1.2), state.2.2)))).within (.holding acc)
    Watched.settleChoice outcome parked fun acc => (second.watch fuel sink context acc a).zoom
      (fun state => (state.1.2, state.2)) (fun old state => ((old.1.1, state.1), state.2))
  | _, _, zip left right, _, _, sink => fun context acc a => do
    let l ← (left.watch fuel Sink.first.watched context none a).zoom
      (fun state => (state.1.1, ())) (fun old state => ((state.1, old.1.2), old.2))
    let r ← (right.watch fuel Sink.first.watched context none a).zoom
      (fun state => (state.1.2, ())) (fun old state => ((old.1.1, state.1), old.2))
    match l.both r with
    | .proceed (some pair) => (sink context acc pair).below
    | .proceed none => return .proceed acc
    | .complete _ => return .proceed acc
    | .fail failure => return .fail failure
    | .alternate value => return .alternate value
  | _, _, flatten outer inner, _, _, sink =>
    outer.watch fuel fun context acc i =>
      Prod.fst <$> ((inner i).watch fuel sink context acc ()).within (inner i).init
  | _, _, each, _, _, sink => fun context acc items => (Watched.feed sink context items acc).below
  | _, _, countUp, _, _, sink => fun context acc n => (Watched.feedCount sink context n 0 acc).below
  | _, _, drain read, _, _, sink => fun context acc source =>
    (Watched.drainFeed sink read context source.tail source.items acc).below
  | _, _, reject failure, _, _, _ => fun _ _ a => do fail (← call failure a)
  | _, _, scope inner, _, _, sink => fun context acc a => do
    match ← (Watched.inScope context fun nested =>
        inner.watch fuel Sink.first.watched nested none a).zoom
      (fun state => (state.1, ())) (fun old state => (state.1, old.2)) with
    | .proceed (some b) => (sink context acc b).below
    | .complete (some b) => (sink context acc b).below
    | .proceed none => fail .bottom
    | .complete none => fail .bottom
    | .fail failure => return .fail failure
    | .alternate value => return .alternate value
  | _, _, scopeMany inner, _, _, sink => fun context acc a => do
    match ← (Watched.inScope context fun nested =>
        inner.watch fuel Sink.all.watched nested #[] a).zoom
      (fun state => (state.1, ())) (fun old state => (state.1, old.2)) with
    | .proceed values => (sink context acc values.toList).below
    | .complete values => (sink context acc values.toList).below
    | .fail failure => return .fail failure
    | .alternate value => return .alternate value
  | _, _, acquire openResource disposal, _, _, sink => fun context acc a => do
    match ← call openResource a with
    | .error failure => fail failure
    | .ok resource =>
      let handle ← lift (Step.modifyGet Env.newHandle)
      let shared : Shared _ := ⟨handle, resource⟩
      lift (Step.update (·.register ⟨context.registry, handle, disposal shared⟩))
      (sink context acc shared).below
  | _, _, release handle?, _, _, sink => fun context acc a => do
    match handle? a with
    | some handle => lift (Step.update fun env => (env.release context.registry handle).2)
    | none => pure ()
    (sink context acc a).below
  | _, _, bimap left right, _, _, sink => fun context acc value =>
    match value with
    | .left l => (left.watch fuel (fun context acc l => sink context acc (.left l))
        context acc l).zoom
      (fun state => (state.1.1, state.2)) (fun old state => ((state.1, old.1.2), state.2))
    | .right r => (right.watch fuel (fun context acc r => sink context acc (.right r))
        context acc r).zoom
      (fun state => (state.1.2, state.2)) (fun old state => ((old.1.1, state.1), state.2))
    | .fail failure => fail failure
  | _, _, bindRight inner, _, _, sink => fun context acc value =>
    match value with
    | .right a => inner.watch fuel sink context acc a
    | .left l => (sink context acc (.left l)).below
    | .fail failure => (sink context acc (.fail failure)).below
  | _, _, expectRight toAlternate, _, _, sink => fun context acc value =>
    match value with
    | .right a => (sink context acc a).below
    | .left l => alternate (toAlternate l)
    | .fail failure => fail failure
  | _, _, collapse onLeft onRight, _, _, sink => fun context acc value => do
    match value with
    | .left l => (sink context acc (← call onLeft l)).below
    | .right r => (sink context acc (← call onRight r)).below
    | .fail failure => fail failure
  | _, _, retry inner schedule sleeper accept, _, _, sink => fun context acc a =>
    let attempt := (inner.watch fuel Sink.last.watched context none a).isolated (inner.init, ())
    (Watched.repeatRounds (fun pass _ =>
      Watched.retryRound sink context acc schedule sleeper accept attempt pass)
      fuel schedule.start ()).below
  | _, _, foldAttempts inner schedule sleeper seed f bound, _, _, sink => fun context acc a =>
    let attempt := (inner.watch fuel Sink.last.watched context none a).isolated (inner.init, ())
    (Watched.repeatRounds (Watched.foldRound sink context acc schedule sleeper f bound attempt)
      fuel schedule.start seed).below

theorem Stage.watch_release (fuel : Nat) (handle? : A → Option Handle)
    (sink : WatchedSink σ X κ S A) (context : Context) (acc : S) (a : A) :
    (release handle? : Stage σ X A A).watch fuel sink context acc a = (do
      match handle? a with
      | some handle =>
        Watched.lift (Step.update fun env => (env.release context.registry handle).2)
      | none => pure ()
      (sink context acc a).below) := rfl

/-! ### Watching changes nothing -/

/-- A watched step that does what a step does. -/
def Watched.Watches (watched : Watched σ X κ α) (step : Step σ κ α) : Prop := watched.step = step

/-- A watched sink that does what a sink does. -/
def WatchedSink.Watches (watched : WatchedSink σ X κ S A) (sink : Sink σ X κ S A) : Prop :=
  ∀ context acc a, (watched context acc a).Watches (sink context acc a)

theorem Sink.watches_watched (sink : Sink σ X κ S A) : sink.watched.Watches sink :=
  fun _ _ _ => rfl

namespace Watched

theorem watches_lift (step : Step σ κ α) : (lift step : Watched σ X κ α).Watches step := rfl

theorem watches_fail (failure : Failure) :
    (fail failure : Watched σ X κ (Verdict X S)).Watches (pure (.fail failure)) := rfl

namespace Watches

theorem bind {watched : Watched σ X κ α} {next : α → Watched σ X κ β} {first : Step σ κ α}
    {second : α → Step σ κ β} (hfirst : watched.Watches first)
    (hnext : ∀ a, (next a).Watches (second a)) : (watched >>= next).Watches (first >>= second) := by
  rw [Watches, step_bind, hfirst]
  exact bind_congr hnext

theorem map {watched : Watched σ X κ α} {step : Step σ κ α} (h : watched.Watches step)
    (f : α → β) : (f <$> watched).Watches (f <$> step) := congrArg (f <$> ·) h

theorem zoom {watched : Watched σ X ι α} {step : Step σ ι α} (h : watched.Watches step)
    (view : κ → ι) (replace : κ → ι → κ) :
    (watched.zoom view replace).Watches (step.zoom view replace) :=
  congrArg (Step.zoom view replace) h

theorem within {watched : Watched σ X (ι × κ) α} {step : Step σ (ι × κ) α}
    (h : watched.Watches step) (inner : ι) : (watched.within inner).Watches (step.within inner) :=
  congrArg (Step.within inner) h

theorem isolated {watched : Watched σ X ι α} {step : Step σ ι α} (h : watched.Watches step)
    (inner : ι) : (watched.isolated inner : Watched σ X κ α).Watches (step.isolated inner) :=
  congrArg (Step.isolated inner) h

theorem ensure {watched : Watched σ X κ α} {step : Step σ κ α} (h : watched.Watches step)
    (cleanUp : Env σ → Env σ) : (watched.ensure cleanUp).Watches (step.ensure cleanUp) :=
  congrArg (Step.ensure · cleanUp) h

theorem below {watched : Watched σ X κ α} {step : Step σ κ α} (h : watched.Watches step) :
    (watched.below : Watched σ X (ι × κ) α).Watches (Sink.below step) := h.zoom _ _

theorem unlessInterrupted {watched : Watched σ X κ (Verdict X S)} {step : Step σ κ (Verdict X S)}
    (h : watched.Watches step) (context : Context) :
    (unlessInterrupted context watched).Watches fun state env =>
      match env.interruption? context with
      | some failure => ⟨.ok (.fail failure), state, env.record (.stopped failure)⟩
      | none => step state env := by
  funext state env
  simp only [Watched.unlessInterrupted, step_bind, step_lift, Step.bind_apply, Step.ask]
  cases env.interruption? context with
  | some failure => rfl
  | none => exact congrFun (congrFun h state) env

theorem inScope {watched : Context → Watched σ X κ α} {step : Context → Step σ κ α}
    (h : ∀ nested, (watched nested).Watches (step nested)) (context : Context) :
    (inScope context watched).Watches (Transduction.inScope context step) :=
  (watches_lift _).bind fun nested => (h nested).ensure _

theorem repeatRounds {R : Type} {schedule : Schedule}
    {watched : schedule.Pass → T → Watched σ X κ (Continuation schedule T R)}
    {round : schedule.Pass → T → Step σ κ (Continuation schedule T R)}
    (h : ∀ pass current, (watched pass current).Watches (round pass current)) (fuel : Nat)
    (pass : schedule.Pass) (current : T) :
    (repeatRounds watched fuel pass current).Watches
      (Transduction.repeatRounds round fuel pass current) := by
  induction fuel generalizing pass current with
  | zero => rfl
  | succ fuel ih =>
    funext state env
    simp only [Watched.repeatRounds, step_bind, Step.bind_apply, Transduction.repeatRounds]
    rw [h pass current]
    rcases round pass current state env with ⟨_ | next, state', env'⟩
    · rfl
    · cases next with
      | finish result => rfl
      | again pass current => exact congrFun (congrFun (ih pass current) state') env'

theorem waitOr {schedule : Schedule} {watched : Watched σ X κ (Verdict X S)}
    {exhausted : Step σ κ (Verdict X S)} (h : watched.Watches exhausted) (sleeper : Sleeper σ)
    (context : Context) (pass : schedule.Pass) (current : T) :
    (waitOr sleeper context pass current watched).Watches
      (Transduction.waitOr sleeper context pass current exhausted) := by
  refine (watches_lift _).bind fun found => ?_
  rcases found with _ | ⟨delay, pass⟩
  · exact h.map _
  · refine (watches_lift _).bind fun stop => ?_
    cases stop <;> rfl

end Watches

end Watched

namespace WatchedSink.Watches

variable {context : Context}

theorem hand {watched : WatchedSink σ X κ S A} {sink : Sink σ X κ S A} (h : watched.Watches sink)
    (item : A) (acc : S) {rest : S → Watched σ X κ (Verdict X S)}
    {next : S → Step σ κ (Verdict X S)} (hrest : ∀ acc, (rest acc).Watches (next acc)) :
    (Watched.hand watched context item acc rest).Watches fun state env =>
      match sink context acc item state (env.record .handed) with
      | ⟨.ok (.proceed acc), state, env⟩ => next acc state env
      | ended => ended := by
  funext state env
  simp only [Watched.hand, Watched.step_bind, Watched.step_lift, Step.bind_apply, Step.update]
  rw [h context acc item]
  rcases sink context acc item state (env.record .handed) with ⟨_ | verdict, state', env'⟩
  · rfl
  · cases verdict with
    | proceed acc => exact congrFun (congrFun (hrest acc) state') env'
    | complete | fail | alternate => rfl

theorem feed {watched : WatchedSink σ X κ S A} {sink : Sink σ X κ S A} (h : watched.Watches sink)
    (items : List A) (acc : S) :
    (Watched.feed watched context items acc).Watches (feed sink context items acc) := by
  induction items generalizing acc with
  | nil => rfl
  | cons item rest ih => exact (h.hand item acc ih).unlessInterrupted context

theorem feedCount {watched : WatchedSink σ X κ S Nat} {sink : Sink σ X κ S Nat}
    (h : watched.Watches sink) (left next : Nat) (acc : S) :
    (Watched.feedCount watched context left next acc).Watches
      (feedCount sink context left next acc) := by
  induction left generalizing next acc with
  | zero => rfl
  | succ left ih => exact (h.hand next acc (ih (next + 1))).unlessInterrupted context

theorem drainFeed {watched : WatchedSink σ X κ S B} {sink : Sink σ X κ S B}
    (h : watched.Watches sink) (read : A → Except Failure B) (tail : Feed.Tail) (items : List A)
    (acc : S) : (Watched.drainFeed watched read context tail items acc).Watches
      (drainFeed sink read context tail items acc) := by
  induction items generalizing acc with
  | nil =>
    refine Watched.Watches.unlessInterrupted ?_ context
    cases tail <;> rfl
  | cons item rest ih =>
    refine Watched.Watches.unlessInterrupted ?_ context
    cases read item with
    | error failure => rfl
    | ok value => exact h.hand value acc ih

theorem deliver {watched : WatchedSink σ X κ S B} {sink : Sink σ X κ S B}
    (h : watched.Watches sink) (acc : S) (produced : Option B) :
    (Watched.deliver watched context acc produced).Watches (deliver sink context acc produced) := by
  cases produced with
  | some value => exact h context acc value
  | none => rfl

variable {schedule : Schedule} {watchedAttempt : Watched σ X κ (Verdict X (Option B))}
  {attempt : Step σ κ (Verdict X (Option B))}

theorem retryRound {watched : WatchedSink σ X κ S B} {sink : Sink σ X κ S B}
    (h : watched.Watches sink) (acc : S) (sleeper : Sleeper σ) (accept : Callback σ B Bool)
    (hattempt : watchedAttempt.Watches attempt) (pass : schedule.Pass) :
    (Watched.retryRound watched context acc schedule sleeper accept watchedAttempt pass).Watches
      (retryRound sink context acc schedule sleeper accept attempt pass) := by
  refine (Watched.watches_lift _).bind fun _ => hattempt.bind fun outcome => ?_
  cases outcome with
  | fail | alternate => rfl
  | complete produced => exact ((h.deliver acc produced).map _).map _
  | proceed produced =>
    refine (Watched.watches_lift _).bind fun accepted => ?_
    cases accepted with
    | true => exact (h.deliver acc produced).map _
    | false => exact (h.deliver acc produced).waitOr sleeper context pass ()

theorem foldRound {watched : WatchedSink σ X κ S T} {sink : Sink σ X κ S T}
    (h : watched.Watches sink) (acc : S) (sleeper : Sleeper σ) (f : Callback σ (T × B) T)
    (bound : Bound σ T) (hattempt : watchedAttempt.Watches attempt) (pass : schedule.Pass)
    (current : T) :
    (Watched.foldRound watched context acc schedule sleeper f bound watchedAttempt pass
      current).Watches
        (foldRound sink context acc schedule sleeper f bound attempt pass current) := by
  have hafter (isLast : Bool) (current : T) : Watched.Watches
      (if isLast then .finish <$> Verdict.completed <$> watched context acc current
        else Watched.waitOr sleeper context pass current (watched context acc current))
      (if isLast then .finish <$> Verdict.completed <$> sink context acc current
        else waitOr sleeper context pass current (sink context acc current)) := by
    cases isLast with
    | true => exact ((h context acc current).map _).map _
    | false => exact (h context acc current).waitOr sleeper context pass current
  refine (Watched.watches_lift _).bind fun _ => hattempt.bind fun outcome => ?_
  cases outcome with
  | fail | alternate => rfl
  | proceed produced | complete produced =>
    cases produced with
    | none => exact hafter _ current
    | some value =>
      refine (Watched.watches_lift _).bind fun folded =>
        (Watched.watches_lift _).bind fun reach => ?_
      cases reach with
      | excluded => exact (h context acc current).map _
      | included => exact (h context acc folded).map _
      | inside => exact hafter _ folded

theorem relay {watched : WatchedSink σ X κ S B} {sink : Sink σ X κ S B}
    (h : watched.Watches sink) : (Watched.relay watched).Watches (relay sink) := by
  intro context _ value
  refine (Watched.watches_lift _).bind fun parked => ?_
  cases parked with
  | stopped verdict => rfl
  | holding acc =>
    refine (h context acc value).below.bind fun verdict => ?_
    cases verdict <;> rfl

end WatchedSink.Watches

/-- A watched stage does what the stage does. -/
theorem Stage.watches_run (fuel : Nat) {A B : Type} (stage : Stage σ X A B) {κ S : Type}
    {watched : WatchedSink σ X κ S B} {sink : Sink σ X κ S B} (h : watched.Watches sink) :
    (stage.watch fuel watched).Watches (stage.run fuel sink) := by
  induction stage generalizing κ S with
  | identity => exact fun context acc a => (h context acc a).below
  | map f | inspect look =>
    intro context acc a
    exact (Watched.watches_lift _).bind fun _ => (h context acc _).below
  | filter test =>
    intro context acc a
    refine (Watched.watches_lift _).bind fun holds => ?_
    cases holds with
    | true => exact (h context acc a).below
    | false => rfl
  | filterMap f =>
    intro context acc a
    refine (Watched.watches_lift _).bind fun found => ?_
    cases found with
    | some b => exact (h context acc b).below
    | none => rfl
  | constant b => exact fun context acc _ => (h context acc b).below
  | compose first second ihFirst ihSecond =>
    exact fun context acc a => (ihFirst (ihSecond h) context acc a).zoom _ _
  | take count =>
    intro context acc a
    refine (Watched.watches_lift _).bind fun remaining : Nat => ?_
    cases remaining with
    | zero => rfl
    | succ left => exact (Watched.watches_lift _).bind fun _ => (h context acc a).below
  | takeWhen answer test =>
    intro context acc a
    refine (Watched.watches_lift _).bind fun holds => ?_
    by_cases hholds : holds = answer
    · rw [if_pos hholds, if_pos hholds]
      exact (h context acc a).below
    · rw [if_neg hholds, if_neg hholds]
      rfl
  | skip count =>
    intro context acc a
    refine (Watched.watches_lift _).bind fun remaining : Nat => ?_
    cases remaining with
    | zero => exact (h context acc a).below
    | succ left => rfl
  | skipWhen answer test =>
    intro context acc a
    refine (Watched.watches_lift _).bind fun skipping : Bool => ?_
    cases skipping with
    | false => exact (h context acc a).below
    | true =>
      refine (Watched.watches_lift _).bind fun holds => ?_
      by_cases hholds : holds = answer
      · rw [if_pos hholds, if_pos hholds]
        rfl
      · rw [if_neg hholds, if_neg hholds]
        exact (Watched.watches_lift _).bind fun _ => (h context acc a).below
  | fold seed f bound =>
    intro context acc a
    refine (Watched.watches_lift _).bind fun current => (Watched.watches_lift _).bind fun folded =>
      (Watched.watches_lift _).bind fun reach => ?_
    cases reach with
    | excluded => rfl
    | included => exact (Watched.watches_lift _).bind fun _ => (h context acc folded).below.map _
    | inside => exact (Watched.watches_lift _).bind fun _ => (h context acc folded).below
  | choice first second ihFirst ihSecond =>
    intro context acc a
    refine (((ihFirst h.relay context () a).zoom _ _).within _).bind ?_
    rintro ⟨outcome, parked⟩
    cases parked with
    | stopped verdict => rfl
    | holding acc =>
      cases outcome with
      | proceed | complete | alternate => rfl
      | fail failure => exact (ihSecond h context acc a).zoom _ _
  | zip left right ihLeft ihRight =>
    intro context acc a
    refine ((ihLeft Sink.first.watches_watched context none a).zoom _ _).bind fun l =>
      ((ihRight Sink.first.watches_watched context none a).zoom _ _).bind fun r => ?_
    rcases l.both r with (_ | pair) | _ | _ | _
    · rfl
    · exact (h context acc pair).below
    all_goals rfl
  | flatten outer inner ihOuter ihInner =>
    exact ihOuter fun context acc i => ((ihInner i h context acc ()).within _).map _
  | each => exact fun context acc items => (h.feed items acc).below
  | countUp => exact fun context acc n => (h.feedCount n 0 acc).below
  | drain read => exact fun context acc source => (h.drainFeed read source.tail _ acc).below
  | reject failure =>
    intro context acc a
    exact (Watched.watches_lift _).bind fun failure => Watched.watches_fail failure
  | scope inner ih =>
    intro context acc a
    refine Watched.Watches.bind ((Watched.Watches.inScope (fun nested =>
      ih Sink.first.watches_watched nested none a) context).zoom _ _) fun outcome => ?_
    rcases outcome with (_ | b) | (_ | b) | _ | _
    · rfl
    · exact (h context acc b).below
    · rfl
    · exact (h context acc b).below
    all_goals rfl
  | scopeMany inner ih =>
    intro context acc a
    refine Watched.Watches.bind ((Watched.Watches.inScope (fun nested =>
      ih Sink.all.watches_watched nested #[] a) context).zoom _ _) fun outcome => ?_
    cases outcome with
    | proceed values | complete values => exact (h context acc values.toList).below
    | fail | alternate => rfl
  | acquire openResource disposal =>
    intro context acc a
    refine (Watched.watches_lift _).bind fun opened => ?_
    cases opened with
    | error failure => rfl
    | ok resource =>
      exact (Watched.watches_lift _).bind fun handle => (Watched.watches_lift _).bind fun _ =>
        (h context acc ⟨handle, resource⟩).below
  | release handle? =>
    intro context acc a
    rw [watch_release, run_release]
    cases handle? a with
    | none => exact (h context acc a).below
    | some handle => exact (Watched.watches_lift _).bind fun _ => (h context acc a).below
  | bimap left right ihLeft ihRight =>
    intro context acc value
    cases value with
    | left l => exact (ihLeft (fun context acc l => h context acc (.left l)) context acc l).zoom _ _
    | right r =>
      exact (ihRight (fun context acc r => h context acc (.right r)) context acc r).zoom _ _
    | fail failure => rfl
  | bindRight inner ih =>
    intro context acc value
    cases value with
    | right a => exact ih h context acc a
    | left l => exact (h context acc (.left l)).below
    | fail failure => exact (h context acc (.fail failure)).below
  | expectRight toAlternate =>
    intro context acc value
    cases value with
    | right a => exact (h context acc a).below
    | left | fail => rfl
  | collapse onLeft onRight =>
    intro context acc value
    cases value with
    | left | right => exact (Watched.watches_lift _).bind fun c => (h context acc c).below
    | fail failure => rfl
  | retry inner schedule sleeper accept ih =>
    intro context acc a
    have hattempt := (ih Sink.last.watches_watched context none a).isolated (κ := κ)
      (inner.init, ())
    exact (Watched.Watches.repeatRounds (fun pass _ =>
      h.retryRound acc sleeper accept hattempt pass) fuel _ _).below
  | foldAttempts inner schedule sleeper seed f bound ih =>
    intro context acc a
    have hattempt := (ih Sink.last.watches_watched context none a).isolated (κ := κ)
      (inner.init, ())
    exact (Watched.Watches.repeatRounds (h.foldRound acc sleeper f bound hattempt) fuel _ _).below

end Transduction
