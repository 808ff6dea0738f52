import Transduction.Stage.Attempts

/-!
# Running stages

An instance of a stage turns a sink for its outputs into a sink for its inputs. The state of the
new sink is the state of the instance in front of the state of the old one. Endless schedules are
cut off after a number of attempts per value, which breaks off the run.

## Main definitions

* `Verdict.both`: the verdict on a value fed to two stages, from the verdicts of the two.
* `Parked`, `relay`: how the accumulator survives a failure of the first of two alternatives.
* `inScope`: a step in a scope of its own, which is cleaned however the step ends.
* `Stage.run`: the sink for inputs.

## Main results

* `Stage.run_identity`, `Stage.run_compose`, `Stage.run_choice`, `Stage.run_release`: the sinks of
  the identity, of a composition, of two alternatives and of a release.
-/

namespace Transduction

variable {σ X κ S A B C : Type}

/-! ### Two stages on one value -/

/-- The verdict on a value fed to two stages that each keep the first value passed on: failures of
both are combined, a failure comes before an alternate, the left side before the right, and a pair
needs a value from both. -/
def Verdict.both : Verdict X (Option B) → Verdict X (Option C) → Verdict X (Option (B × C))
  | .fail first, .fail second => .fail (first.combine second)
  | .fail failure, _ => .fail failure
  | _, .fail failure => .fail failure
  | .alternate value, _ => .alternate value
  | _, .alternate value => .alternate value
  | left, right =>
    match left.acc?, right.acc? with
    | some (some b), some (some c) => .proceed (some (b, c))
    | _, _ => .proceed none

/-! ### Alternatives -/

/-- The accumulator while the first of two alternatives runs: held for the next value, or used up
because the run was stopped downstream. -/
inductive Parked (X S : Type) where
  | holding (acc : S)
  | stopped (verdict : Verdict X S)

/-- The sink of the first of two alternatives. It feeds the common sink from the parked accumulator;
once that sink has stopped the run, it asks the alternative to complete and feeds nothing more. -/
def relay (sink : Sink σ X κ S B) : Sink σ X (Parked X S × κ) Unit B := fun context _ value => do
  match ← Sink.own with
  | .stopped _ => return .complete ()
  | .holding acc =>
    match ← Sink.below (sink context acc value) with
    | .proceed acc =>
      Sink.setOwn (.holding acc)
      return .proceed ()
    | verdict =>
      Sink.setOwn (.stopped verdict)
      return .complete ()

/-- What follows from the outcome of the first of two alternatives: a verdict, or trying the second
one from the accumulator reached so far. -/
def settleChoice {ι : Type} (outcome : Verdict X Unit) (parked : Parked X S)
    (second : S → Step σ ι (Verdict X S)) : Step σ ι (Verdict X S) :=
  match parked, outcome with
  | .stopped verdict, _ => pure verdict
  | .holding acc, .proceed _ => pure (.proceed acc)
  | .holding acc, .complete _ => pure (.complete acc)
  | .holding _, .alternate value => pure (.alternate value)
  | .holding acc, .fail _ => second acc

/-! ### Scopes -/

/-- A step in a scope of its own. The registry of the scope is cleaned and dropped before anything
else happens, also if the step breaks off. -/
def inScope {α : Type} (context : Context) (step : Context → Step σ κ α) : Step σ κ α := do
  let nested ← Step.modifyGet (·.nestedContext context)
  (step nested).ensure fun env =>
    ((env.clean nested.registry).2).dropRegistry nested.registry

/-! ### Stages -/

namespace Stage

/-- The sink for the inputs of a stage, from the sink for its outputs, with at most `fuel` attempts
of a scheduled stage for one value. -/
def run (fuel : Nat) : {A B : Type} → (stage : Stage σ X A B) → {κ S : Type} →
    Sink σ X κ S B → Sink σ X (stage.State × κ) S A
  | _, _, identity, _, _, sink => fun context acc a => Sink.below (sink context acc a)
  | _, _, map f, _, _, sink => fun context acc a => do
    let b ← Step.call f a
    Sink.below (sink context acc b)
  | _, _, filter test, _, _, sink => fun context acc a => do
    if ← Step.call test a then Sink.below (sink context acc a) else return .proceed acc
  | _, _, filterMap f, _, _, sink => fun context acc a => do
    match ← Step.call f a with
    | some b => Sink.below (sink context acc b)
    | none => return .proceed acc
  | _, _, inspect look, _, _, sink => fun context acc a => do
    Step.call look a
    Sink.below (sink context acc a)
  | _, _, constant b, _, _, sink => fun context acc _ => Sink.below (sink context acc b)
  | _, _, compose first second, _, _, sink =>
    let inner := first.run fuel (second.run fuel sink)
    fun context acc a =>
      Step.zoom (fun state => (state.1.1, (state.1.2, state.2)))
        (fun _ state => ((state.1, state.2.1), state.2.2)) (inner context acc a)
  | _, _, take _, _, _, sink => fun context acc a => do
    let remaining : Nat ← Sink.own
    match remaining with
    | 0 => return .complete acc
    | left + 1 =>
      Sink.setOwn left
      Sink.below (sink context acc a)
  | _, _, takeWhen answer test, _, _, sink => fun context acc a => do
    if (← Step.call test a) = answer then Sink.below (sink context acc a) else return .complete acc
  | _, _, skip _, _, _, sink => fun context acc a => do
    let remaining : Nat ← Sink.own
    match remaining with
    | 0 => Sink.below (sink context acc a)
    | left + 1 =>
      Sink.setOwn left
      return .proceed acc
  | _, _, skipWhen answer test, _, _, sink => fun context acc a => do
    let skipping : Bool ← Sink.own
    if skipping then
      if (← Step.call test a) = answer then return .proceed acc
      else
        Sink.setOwn false
        Sink.below (sink context acc a)
    else Sink.below (sink context acc a)
  | _, _, fold _ f bound, _, _, sink => fun context acc a => do
    let folded ← Step.call f (← Sink.own, a)
    match ← bound.reach folded with
    | .excluded => return .complete acc
    | .included =>
      Sink.setOwn folded
      Verdict.completed <$> Sink.below (sink context acc folded)
    | .inside =>
      Sink.setOwn folded
      Sink.below (sink context acc folded)
  | _, _, choice first second, _, _, sink =>
    let trying := first.run fuel (relay sink)
    let fallback := second.run fuel sink
    fun context acc a => do
      let (outcome, parked) ← Step.within (Parked.holding acc) <|
        Step.zoom (fun state => (state.2.1.1, (state.1, state.2.2)))
          (fun old state => (state.2.1, ((state.1, old.2.1.2), state.2.2))) (trying context () a)
      settleChoice outcome parked fun acc =>
        Step.zoom (fun state => (state.1.2, state.2))
          (fun old state => ((old.1.1, state.1), state.2)) (fallback context acc a)
  | _, _, zip left right, _, _, sink =>
    let leftFirst := left.run fuel Sink.first
    let rightFirst := right.run fuel Sink.first
    fun context acc a => do
      let l ← Step.zoom (fun state => (state.1.1, ()))
        (fun old state => ((state.1, old.1.2), old.2)) (leftFirst context none a)
      let r ← Step.zoom (fun state => (state.1.2, ()))
        (fun old state => ((old.1.1, state.1), old.2)) (rightFirst context none a)
      match l.both r with
      | .proceed (some pair) => Sink.below (sink context acc pair)
      | .proceed none => return .proceed acc
      | .complete _ => return .proceed acc
      | .fail failure => return .fail failure
      | .alternate value => return .alternate value
  | _, _, flatten outer inner, _, _, sink =>
    outer.run fuel fun context acc i =>
      Prod.fst <$> Step.within (inner i).init ((inner i).run fuel sink context acc ())
  | _, _, each, _, _, sink => fun context acc items => Sink.below (feed sink context items acc)
  | _, _, countUp, _, _, sink => fun context acc n => Sink.below (feedCount sink context n 0 acc)
  | _, _, drain lift, _, _, sink => fun context acc source =>
    Sink.below (drainFeed sink lift context source.tail source.items acc)
  | _, _, reject failure, _, _, _ => fun _ _ a => Verdict.fail <$> Step.call failure a
  | _, _, scope inner, _, _, sink =>
    let innerFirst := inner.run fuel Sink.first
    fun context acc a => do
      match ← Step.zoom (fun state => (state.1, ())) (fun old state => (state.1, old.2))
        (inScope context fun nested => innerFirst nested none a) with
      | .proceed (some b) => Sink.below (sink context acc b)
      | .complete (some b) => Sink.below (sink context acc b)
      | .proceed none => return .fail .bottom
      | .complete none => return .fail .bottom
      | .fail failure => return .fail failure
      | .alternate value => return .alternate value
  | _, _, scopeMany inner, _, _, sink =>
    let innerAll := inner.run fuel Sink.all
    fun context acc a => do
      match ← Step.zoom (fun state => (state.1, ())) (fun old state => (state.1, old.2))
        (inScope context fun nested => innerAll nested #[] a) with
      | .proceed values => Sink.below (sink context acc values.toList)
      | .complete values => Sink.below (sink context acc values.toList)
      | .fail failure => return .fail failure
      | .alternate value => return .alternate value
  | _, _, acquire openResource disposal, _, _, sink => fun context acc a => do
    match ← Step.call openResource a with
    | .error failure => return .fail failure
    | .ok resource =>
      let handle ← Step.modifyGet Env.newHandle
      let shared : Shared _ := ⟨handle, resource⟩
      Step.update (·.register ⟨context.registry, handle, disposal shared⟩)
      Sink.below (sink context acc shared)
  | _, _, release handle?, _, _, sink => fun context acc a => do
    match handle? a with
    | some handle => Step.update fun env => (env.release context.registry handle).2
    | none => pure ()
    Sink.below (sink context acc a)
  | _, _, bimap left right, _, _, sink =>
    let intoLeft := left.run fuel fun context acc l => sink context acc (.left l)
    let intoRight := right.run fuel fun context acc r => sink context acc (.right r)
    fun context acc value =>
      match value with
      | .left l => Step.zoom (fun state => (state.1.1, state.2))
        (fun old state => ((state.1, old.1.2), state.2)) (intoLeft context acc l)
      | .right r => Step.zoom (fun state => (state.1.2, state.2))
        (fun old state => ((old.1.1, state.1), state.2)) (intoRight context acc r)
      | .fail failure => pure (.fail failure)
  | _, _, bindRight inner, _, _, sink =>
    let onRight := inner.run fuel sink
    fun context acc value =>
      match value with
      | .right a => onRight context acc a
      | .left l => Sink.below (sink context acc (.left l))
      | .fail failure => Sink.below (sink context acc (.fail failure))
  | _, _, expectRight toAlternate, _, _, sink => fun context acc value =>
    match value with
    | .right a => Sink.below (sink context acc a)
    | .left l => pure (.alternate (toAlternate l))
    | .fail failure => pure (.fail failure)
  | _, _, collapse onLeft onRight, _, _, sink => fun context acc value => do
    match value with
    | .left l => Sink.below (sink context acc (← Step.call onLeft l))
    | .right r => Sink.below (sink context acc (← Step.call onRight r))
    | .fail failure => return .fail failure
  | _, _, retry inner schedule sleeper accept, _, _, sink =>
    let innerLast := inner.run fuel Sink.last
    fun context acc a => Sink.below <|
      let attempt := Step.isolated (inner.init, ()) (innerLast context none a)
      repeatRounds (fun pass _ => retryRound sink context acc schedule sleeper accept attempt pass)
        fuel schedule.start ()
  | _, _, foldAttempts inner schedule sleeper seed f bound, _, _, sink =>
    let innerLast := inner.run fuel Sink.last
    fun context acc a => Sink.below <|
      let attempt := Step.isolated (inner.init, ()) (innerLast context none a)
      repeatRounds (foldRound sink context acc schedule sleeper f bound attempt)
        fuel schedule.start seed

theorem run_identity {fuel : Nat} (sink : Sink σ X κ S A) (context : Context) (acc : S) (a : A) :
    (identity : Stage σ X A A).run fuel sink context acc a = Sink.below (sink context acc a) := rfl

theorem run_compose {fuel : Nat} (first : Stage σ X A B) (second : Stage σ X B C)
    (sink : Sink σ X κ S C) (context : Context) (acc : S) (a : A) :
    (compose first second).run fuel sink context acc a =
      Step.zoom (fun state => (state.1.1, (state.1.2, state.2)))
        (fun _ state => ((state.1, state.2.1), state.2.2))
        (first.run fuel (second.run fuel sink) context acc a) := rfl

theorem run_choice {fuel : Nat} (first second : Stage σ X A B) (sink : Sink σ X κ S B)
    (context : Context) (acc : S) (a : A) :
    (choice first second).run fuel sink context acc a = (do
      let (outcome, parked) ← Step.within (Parked.holding acc) <|
        Step.zoom (fun state => (state.2.1.1, (state.1, state.2.2)))
          (fun old state => (state.2.1, ((state.1, old.2.1.2), state.2.2)))
          (first.run fuel (relay sink) context () a)
      settleChoice outcome parked fun acc =>
        Step.zoom (fun state => (state.1.2, state.2))
          (fun old state => ((old.1.1, state.1), state.2)) (second.run fuel sink context acc a)) :=
  rfl

theorem run_release {fuel : Nat} (handle? : A → Option Handle) (sink : Sink σ X κ S A)
    (context : Context) (acc : S) (a : A) :
    (release handle?).run fuel sink context acc a = (do
      match handle? a with
      | some handle => Step.update fun env => (env.release context.registry handle).2
      | none => pure ()
      Sink.below (sink context acc a)) := rfl

end Stage

end Transduction
