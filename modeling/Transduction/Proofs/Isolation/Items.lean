import Transduction.Blueprint.Value
import Transduction.Stage.Collect
import Transduction.Proofs.Fallback.Slot
import Transduction.Proofs.Isolation.Identities

/-!
# Items in scopes of their own

A stage with a scope runs another stage on each item as if it were run there alone, in a context of
its own that is over before the item is answered, and answers from the yield of that run. The
instance that it runs is one and the same for all items, though. What an item comes to is that of a
run of a new instance as long as the instance is as it was at the beginning, which holds for the
first item, and for all items if the instance has nothing to remember.

An instance that counts its items counts them across scopes, so a scope around a stage that passes
on one value and completes fails on its second item.

## Main definitions

* `Stage.runApart`: an instance run in a context of its own.
* `Stage.Answers`: how an item is answered from a run that is over.

## Main results

* `Stage.inScope_run`: an instance in a scope is run as in a context of its own.
* `Stage.answers_scope`, `Stage.answers_scopeMany`: the answer to one item.
* `Stage.items_apart`: the answer to each item of a sequence.
* `Stage.items_not_apart`: an item that is not answered from a run of a new instance.
-/

namespace Transduction

variable {σ X ι κ S A B C D : Type}

namespace Stage

/-- What is delivered from the outputs of a scope that is to give one. -/
def single : List B → Except Failure B
  | [] => .error .bottom
  | value :: _ => .ok value

/-- An instance run on an input in a context of its own, whose registry is cleaned and dropped at
the end. -/
def runApart (fuel : Nat) (stage : Stage σ X A B) (sink : Sink σ X Unit C B) (seed : C)
    (deadline : Option Nat) (input : A) : Step σ stage.State (Verdict X C) := fun mine env =>
  let (context, env) := env.openContext deadline
  let ended := stage.run fuel sink context seed input (mine, ()) env
  ⟨ended.result, ended.state.1,
    (ended.env.clean context.registry).2.dropRegistry context.registry⟩

theorem first_eq_runApart [TypeNamed X] (fuel : Nat) (stage : Stage σ X A B) (input : A)
    (env : Env σ) :
    let ended := stage.runApart fuel Sink.first none none input stage.init env
    stage.first fuel input env = (ended.result.map (yieldOf .ofOption), ended.env) := rfl

theorem collect_eq_runApart [TypeNamed X] (fuel : Nat) (stage : Stage σ X A B) (input : A)
    (env : Env σ) :
    let ended := stage.runApart fuel Sink.all #[] none input stage.init env
    stage.collect fuel input env =
      (ended.result.map (yieldOf fun values => .ofList values.toList), ended.env) := rfl

/-- An instance in a scope is run as in a context of its own with the same deadline. -/
theorem inScope_run (fuel : Nat) (stage : Stage σ X A B) {sink : Sink σ X Unit C B}
    (hsink : sink.Anonymous) (seed : C) (context : Context) (input : A) (mine : stage.State)
    (env : Env σ) :
    let ended := stage.runApart fuel sink seed context.deadline input mine env
    inScope context (fun nested => stage.run fuel sink nested seed input) (mine, ()) env =
      ⟨ended.result, (ended.state, ()), ended.env⟩ := by
  have hidentity := (stage.anonymous_run fuel hsink).apply (env.openContext context.deadline).1
    (env.nestedContext context).1.identity seed input
  exact congrArg (fun step : Step σ (stage.State × Unit) (Verdict X C) =>
    step.ensure (fun ended => (ended.clean (env.nestedContext context).1.registry).2.dropRegistry
      (env.nestedContext context).1.registry) (mine, ()) (env.nestedContext context).2) hidentity

/-- How an item is answered from a run that is over, by its last verdict, what it yields and the
surroundings after it: with what is expected from its values, or with a failure if they are not as
expected. A run that failed, ended on an alternate or broke off is passed on. -/
inductive Answers [TypeNamed X] (expect : List B → Except Failure D) (sink : Sink σ X κ S D)
    (context : Context) (acc : S) (mine : ι) (down : κ) (after : Env σ) :
    Except Halt (Verdict X C) → Except Halt (Yield B) → Ended σ (ι × κ) (Verdict X S) → Prop
  | delivers {verdict : Verdict X C} {yield : Yield B} {values : List B} {d : D}
      (hvalues : yield.values = .ok values) (h : expect values = .ok d) :
      Answers expect sink context acc mine down after (.ok verdict) (.ok yield)
        (Sink.below (sink context acc d) (mine, down) after)
  | misses {verdict : Verdict X C} {yield : Yield B} {values : List B} {failure : Failure}
      (hvalues : yield.values = .ok values) (h : expect values = .error failure) :
      Answers expect sink context acc mine down after (.ok verdict) (.ok yield)
        ⟨.ok (.fail failure), (mine, down), after⟩
  | fails (failure : Failure) :
      Answers expect sink context acc mine down after (.ok (.fail failure))
        (.ok (.fail failure)) ⟨.ok (.fail failure), (mine, down), after⟩
  | alternate (value : X) :
      Answers expect sink context acc mine down after (.ok (.alternate value))
        (.ok (.fail (.ofAlternate value))) ⟨.ok (.alternate value), (mine, down), after⟩
  | breaksOff (reason : Halt) :
      Answers expect sink context acc mine down after (.error reason) (.error reason)
        ⟨.error reason, (mine, down), after⟩

/-- An instance is new before its first item, and always if it has nothing to remember. -/
theorem drive_new (stage : Stage σ X A B) (step : Sink σ X (stage.State × κ) S A)
    (turns : List ((Env σ → Env σ) × Context × S × A)) (down : κ) (env : Env σ)
    (h : turns = [] ∨ Subsingleton stage.State) :
    (Sink.drive step turns (stage.init, down) env).2.1.1 = stage.init := by
  rcases h with rfl | hstateless
  · rfl
  · exact Subsingleton.elim _ _

section Items

variable [TypeNamed X] (fuel : Nat) (inner : Stage σ X A B) (context : Context) (acc : S) (a : A)
  (mine : inner.State) (down : κ) (env : Env σ)

/-- What a stage does about an item whose scope is over. -/
theorem answers_inScope (sink : Sink σ X κ S D) {expect : List B → Except Failure D}
    {collecting : Sink σ X Unit C B} (hcollecting : collecting.Anonymous) (seed : C)
    {shape : C → Yield B} {next : Verdict X C → Step σ (inner.State × κ) (Verdict X S)}
    (hnext : ∀ outcome mine env, Answers expect sink context acc mine down env (.ok outcome)
      (.ok (yieldOf shape outcome)) (next outcome (mine, down) env)) :
    let ended := inner.runApart fuel collecting seed context.deadline a mine env
    let scopedStep : Step σ (inner.State × κ) (Verdict X C) :=
      .zoom (fun state => (state.1, ())) (fun old state => (state.1, old.2))
        (inScope context fun nested => inner.run fuel collecting nested seed a)
    Answers expect sink context acc ended.state down ended.env ended.result
      (ended.result.map (yieldOf shape)) ((scopedStep >>= next) (mine, down) env) := by
  intro ended scopedStep
  have hscope : scopedStep (mine, down) env = ⟨ended.result, (ended.state, down), ended.env⟩ :=
    congrArg (fun whole : Ended σ (inner.State × Unit) (Verdict X C) =>
      Ended.mk whole.result (whole.state.1, down) whole.env)
      (inner.inScope_run fuel hcollecting seed context a mine env)
  cases hresult : ended.result with
  | error reason =>
    rw [hresult] at hscope
    rw [Step.bind_of_error hscope]
    exact .breaksOff reason
  | ok outcome =>
    rw [hresult] at hscope
    rw [Step.bind_of_ok hscope]
    exact hnext outcome ended.state ended.env

/-- A scope that is to give one value answers from the first output of its instance. -/
theorem answers_scope (sink : Sink σ X κ S B) :
    let ended := inner.runApart fuel Sink.first none context.deadline a mine env
    Answers single sink context acc ended.state down ended.env ended.result
      (ended.result.map (yieldOf .ofOption))
      ((scope inner).run fuel sink context acc a (mine, down) env) := by
  refine answers_inScope fuel inner context acc a mine down env sink Sink.anonymous_first none ?_
  intro outcome mine' after
  rcases outcome with (_ | b) | (_ | b) | failure | value
  · exact .misses rfl rfl
  · exact .delivers rfl rfl
  · exact .misses rfl rfl
  · exact .delivers rfl rfl
  · exact .fails failure
  · exact .alternate value

/-- A scope that gives a list answers with all outputs of its instance. -/
theorem answers_scopeMany (sink : Sink σ X κ S (List B)) :
    let ended := inner.runApart fuel Sink.all #[] context.deadline a mine env
    Answers Except.ok sink context acc ended.state down ended.env ended.result
      (ended.result.map (yieldOf fun values => .ofList values.toList))
      ((scopeMany inner).run fuel sink context acc a (mine, down) env) := by
  refine answers_inScope fuel inner context acc a mine down env sink Sink.anonymous_all #[] ?_
  intro outcome mine' after
  cases outcome with
  | proceed values | complete values => exact .delivers (Yield.values_ofList values.toList) rfl
  | fail failure => exact .fails failure
  | alternate value => exact .alternate value

/-- Items that one instance of a stage with a scope is fed one after the other. Whatever the items
before it, each item is answered from a run on it in a context of its own, with the instance as the
items before have left it: with the first output or the failure of no value, with the list of all
outputs, or as the run failed, ended on an alternate or broke off.

For the first item the instance is new, and for all items if it has nothing to remember. Where it is
as new and there is no deadline, the answer is the one from a run of a new instance on the item
alone. -/
theorem items_apart (turns : List ((Env σ → Env σ) × Context × S × A))
    (meanwhile : Env σ → Env σ) :
    (∀ sink : Sink σ X κ S B,
      let reached := Sink.drive ((scope inner).run fuel sink) turns (inner.init, down) env
      let reachedMine : inner.State := reached.2.1.1
      let now := meanwhile reached.2.2
      let ended := inner.runApart fuel Sink.first none context.deadline a reachedMine now
      let yielded := ended.result.map (yieldOf .ofOption)
      Answers single sink context acc ended.state reached.2.1.2 ended.env ended.result yielded
        ((scope inner).run fuel sink context acc a reached.2.1 now) ∧
      (turns = [] ∨ Subsingleton inner.State → reachedMine = inner.init) ∧
      (reachedMine = inner.init → context.deadline = none →
        inner.first fuel a now = (yielded, ended.env))) ∧
    ∀ sink : Sink σ X κ S (List B),
      let reached := Sink.drive ((scopeMany inner).run fuel sink) turns (inner.init, down) env
      let reachedMine : inner.State := reached.2.1.1
      let now := meanwhile reached.2.2
      let ended := inner.runApart fuel Sink.all #[] context.deadline a reachedMine now
      let yielded := ended.result.map (yieldOf fun values => .ofList values.toList)
      Answers Except.ok sink context acc ended.state reached.2.1.2 ended.env ended.result yielded
        ((scopeMany inner).run fuel sink context acc a reached.2.1 now) ∧
      (turns = [] ∨ Subsingleton inner.State → reachedMine = inner.init) ∧
      (reachedMine = inner.init → context.deadline = none →
        inner.collect fuel a now = (yielded, ended.env)) := by
  constructor
  · intro sink reached reachedMine now ended yielded
    have hanswers := answers_scope fuel inner context acc a reachedMine reached.2.1.2 now sink
    refine ⟨hanswers, inner.drive_new _ turns down env, fun hnew hdeadline => ?_⟩
    rw [first_eq_runApart, ← hnew, ← hdeadline]
  · intro sink reached reachedMine now ended yielded
    have hanswers := answers_scopeMany fuel inner context acc a reachedMine reached.2.1.2 now sink
    refine ⟨hanswers, inner.drive_new _ turns down env, fun hnew hdeadline => ?_⟩
    rw [collect_eq_runApart, ← hnew, ← hdeadline]

end Items

/-- The second item in scopes around a test: the first one does not pass it and fails, and the
second one is answered from a run of a new instance. -/
theorem items_apart_after_failure :
    let inner : Stage Unit Blueprint.Value Nat Nat := filter (.ofFun fun n => n % 2 == 0)
    let context : Context := ⟨.root (.ofNat 0), ⟨0⟩, none⟩
    let env : Env Unit := .start () .fresh ⟨id, 0⟩
    let reached := Sink.drive ((scope inner).run 1 (Sink.all : Sink Unit Blueprint.Value Unit _ Nat))
      [(id, context, #[], 1)] (inner.init, ()) env
    let ended := inner.runApart 1 Sink.first none none 2 () reached.2.2
    reached.1 = [.ok (.fail .bottom)] ∧ ended.result = .ok (.complete (some 2)) ∧
      Subsingleton inner.State ∧ context.deadline = none ∧
      inner.first 1 2 reached.2.2 = (.ok (.one 2), ended.env) := by
  intro inner context env reached ended
  have hstateless : Subsingleton inner.State := inferInstanceAs (Subsingleton Unit)
  obtain ⟨-, hnew, hfirst⟩ := (items_apart 1 inner context #[] 2 () env
    [(id, context, #[], 1)] id).1 Sink.all
  exact ⟨rfl, rfl, hstateless, rfl, hfirst (hnew (.inr hstateless)) rfl⟩

/-- Items that are not answered from runs of new instances. A stage that passes on one value and
completes gives the value 2 on the item 2, but in a scope its instance is used up by the item before:
the scope fails on the second item as if there were no value, and a scope that gives lists gives an
empty one. -/
theorem items_not_apart :
    let inner : Stage Unit Blueprint.Value Nat Nat := take 1
    let context : Context := ⟨.root (.ofNat 0), ⟨0⟩, none⟩
    let env : Env Unit := .start () .fresh ⟨id, 0⟩
    let reached := Sink.drive ((scope inner).run 1 Sink.all)
      [(id, context, #[], 1), (id, context, #[1], 2)] (inner.init, ()) env
    let reachedMany := Sink.drive ((scopeMany inner).run 1 Sink.all)
      [(id, context, #[], 1), (id, context, #[[1]], 2)] (inner.init, ()) env
    reached.1 = [.ok (.proceed #[1]), .ok (.fail .bottom)] ∧
      (inner.first 1 2 reached.2.2).1 = .ok (.one 2) ∧
      reachedMany.1 = [.ok (.proceed #[[1]]), .ok (.proceed #[[1], []])] ∧
      (inner.collect 1 2 reachedMany.2.2).1 = .ok (.one 2) :=
  ⟨rfl, rfl, rfl, rfl⟩

end Stage

end Transduction
