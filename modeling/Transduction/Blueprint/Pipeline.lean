import Transduction.Blueprint.Function
import Transduction.Stage.Collect

/-!
# Written pipelines

Pipelines as data, and the stages they describe. All stages work on values; where a stage of the
library has another type of inputs or outputs, values are converted on the way in and out.

## Main definitions

* `Site`: what the callbacks of a pipeline find around them.
* `WaitKind`, `WaitKind.sleeper`: the sleepers a pipeline can name.
* `Limit`: when a fold stops by itself.
* `Pipeline`: the written form of a stage.
* `Pipeline.build`: the stage that a pipeline describes.

## Main results

* `WaitKind.sleeper_timed_zero`: no time at all can be waited anywhere.
* `WaitKind.sleeper_timed_of_hasTimer`, `WaitKind.sleeper_timed_of_not_hasTimer`: any other wait
  needs a timer.
-/

namespace Transduction.Blueprint

/-! ### Sleepers -/

/-- What the callbacks of a pipeline find around them while it runs. -/
structure Site where
  /-- Whether they can cancel the run. -/
  canCancel : Bool
  /-- Whether there is a timer to wait on. -/
  hasTimer : Bool
  deriving DecidableEq, Repr

/-- A sleeper that a pipeline can name. -/
inductive WaitKind where
  /-- Records the wait and does not take time. -/
  | tracking
  /-- Takes as long as it is asked to, which needs a timer unless that is no time at all. -/
  | timed
  /-- Does not take time. -/
  | instant
  /-- Records the wait; on one of its waits, counted from one, it cancels the run and may then go on
  waiting for ever. -/
  | cancelling (place : Nat) (call : Nat) (reason : String) (hangs : Bool)

/-- What a wait without a timer panics with. -/
def noTimer : String :=
  "there is no reactor running, must be called from the context of a Tokio 1.x runtime"

/-- The sleeper of a kind at a site. -/
def WaitKind.sleeper (site : Site) : WaitKind → Sleeper Journal
  | tracking => Effect.plain fun delay => do
    modify (·.recordSleep delay)
    return .elapsed
  | timed => Effect.callback fun delay =>
    if delay = .zero || site.hasTimer then return (.elapsed, [.elapse delay.nanos])
    else throw noTimer
  | instant => Effect.plain fun _ => return .elapsed
  | cancelling place call reason hangs => Effect.callback fun delay => do
    modify (·.recordSleep delay)
    if (← Effect.bump place) = call then
      let rest := if !hangs then .elapsed
        else if site.canCancel then .interrupted reason else .never
      return (rest, if site.canCancel then [.cancel reason] else [])
    else return (.elapsed, [])

namespace WaitKind

theorem sleeper_timed_zero (site : Site) (journal : Journal) :
    timed.sleeper site .zero journal = ⟨.ok .elapsed, journal, [.elapse 0]⟩ := rfl

theorem sleeper_timed_of_hasTimer {site : Site} (h : site.hasTimer = true) (delay : Duration)
    (journal : Journal) :
    timed.sleeper site delay journal = ⟨.ok .elapsed, journal, [.elapse delay.nanos]⟩ := by
  simp [sleeper, Effect.callback, h]
  rfl

theorem sleeper_timed_of_not_hasTimer {site : Site} (h : site.hasTimer = false)
    {delay : Duration} (hdelay : delay ≠ .zero) (journal : Journal) :
    timed.sleeper site delay journal = ⟨.error noTimer, journal, []⟩ := by
  simp [sleeper, Effect.callback, h, hdelay]
  rfl

end WaitKind

/-! ### Written pipelines -/

/-- When a fold stops by itself. -/
inductive Limit where
  | unbounded
  | untilHolds (test : Predicate)
  | whileHolds (test : Predicate)

/-- The bound that a limit describes. -/
def Limit.bound : Limit → Bound Journal Value
  | unbounded => .unbounded
  | untilHolds test => .untilHolds test.callback
  | whileHolds test => .whileHolds test.callback

/-- The written form of a stage. -/
inductive Pipeline where
  | identity
  | map (f : Function)
  | filter (test : Predicate)
  | filterMap (test : Predicate) (f : Function)
  | constant (value : Value)
  | compose (stages : List Pipeline)
  | composeLeft (stages : List Pipeline)
  | inspect (label : String)
  | cancel (test : Predicate) (reason : String)
  | take (count : Nat)
  | skip (count : Nat)
  | takeWhen (answer : Bool) (test : Predicate)
  | skipWhen (answer : Bool) (test : Predicate)
  | fold (seed : Value) (folder : Folder) (limit : Limit)
  | choice (first second : Pipeline)
  | zip (left right : Pipeline)
  | map2 (left right : Pipeline) (folder : Folder)
  | bind (stage : Pipeline) (cases : List (Predicate × Pipeline))
  | flatten (cases : List (Predicate × Pipeline))
  | each
  | countUp
  | stream
  | observe
  | count (label : String)
  | reject (label : String) (message : String)
  | scope (inner : Pipeline)
  | scopeMany (inner : Pipeline)
  | acquire (label : String) (refusal : Option (Predicate × Failure)) (panics : Bool)
  | release
  | bimap (left right : Pipeline)
  | andThen (first second : Pipeline)
  | andThenFun (first : Pipeline) (f : Function)
  | andThenMap (first second : Pipeline)
  | expectRight
  | collapse (onLeft onRight : Function)
  | collapseWith (stage : Pipeline) (onLeft onRight : Function)
  | retry (inner : Pipeline) (schedule : Schedule) (accept : Predicate) (wait : WaitKind)
  | foldAttempts (inner : Pipeline) (schedule : Schedule) (seed : Value) (folder : Folder)
      (limit : Limit) (wait : WaitKind)

/-- Stages on values. -/
abbrev Pipe : Type 1 := Stage Journal Value Value Value

namespace Pipeline

/-! ### Conversions -/

/-- A plain function as a stage. -/
def plain {α β : Type} (f : α → β) : Stage Journal Value α β := .map (.ofFun f)

/-- The stage that reads values as branches. -/
def asBranch : Stage Journal Value Value (Branch Value Value) := plain Value.toBranch

/-- The stage that writes branches as values. -/
def asValue : Stage Journal Value (Branch Value Value) Value := plain Value.ofBranch

/-- A folder as foreign code. -/
def folding (folder : Folder) : Callback Journal (Value × Value) Value :=
  .ofFun fun (acc, v) => folder.eval acc v

/-! ### Callbacks -/

/-- The number of the first case whose test a value satisfies. -/
def firstCase : List Predicate → Value → Nat → Effect Nat
  | [], _, i => pure i
  | test :: rest, v, i => do if ← test.eval v then return i else firstCase rest v (i + 1)

/-- Logs a value under a label. -/
def look (label : String) : Callback Journal Value Unit :=
  Effect.plain fun v => do Effect.write (.passed label ((← get).stamp v))

/-- Cancels the run on values that satisfy a test, at a site where it can be cancelled. -/
def cancelOn (site : Site) (test : Predicate) (reason : String) : Callback Journal Value Unit :=
  Effect.callback fun v => do
    if ← test.eval v then
      Effect.write (.cancel reason)
      return ((), if site.canCancel then [.cancel reason] else [])
    else return ((), [])

/-- Opens a resource named after a label and a value. -/
def openNamed (label : String) (refusal : Option (Predicate × Failure)) :
    Callback Journal Value (Except Failure String) :=
  Effect.plain fun v => do
    let refused ← match refusal with
      | some (test, failure) => (fun holds => if holds then some failure else none) <$> test.eval v
      | none => pure none
    match refused with
    | some failure => return .error failure
    | none =>
      let name := label ++ v.display
      Effect.write (.opened name)
      return .ok name

/-- The disposal of a named resource: it is logged and counted. -/
def disposing (handle : Handle) (name : String) (next : Disposal Journal) : Disposal Journal :=
  .act (fun journal => (journal.write (.dropped name)).countRelease handle) next

/-! ### The described stage -/

/-- Chooses one of several stages for each value, or the identity. -/
def chosen (stages : List Pipe) : Value × Nat → Stage Journal Value Unit Value := fun (v, i) =>
  .compose (.constant v) (stages[i]?.getD .identity)

/-- Pairs each value with the number of the first case it satisfies. -/
def choosing (tests : List Predicate) : Stage Journal Value Value (Value × Nat) :=
  .map (Effect.plain fun v => (v, ·) <$> firstCase tests v 0)

mutual

/-- The stage that a pipeline describes, to be run at a site. -/
def build (site : Site) : Pipeline → Pipe
  | identity => .identity
  | map f => .map f.callback
  | filter test => .filter test.callback
  | filterMap test f => .filterMap <| Effect.plain fun v => do
    if ← test.eval v then some <$> f.eval v else return none
  | constant value => .constant value
  | compose stages => .chain (buildAll site stages)
  | composeLeft stages => .chainLeft (buildAll site stages)
  | inspect label => .inspect (look label)
  | cancel test reason => .inspect (cancelOn site test reason)
  | take n => .take n
  | skip n => .skip n
  | takeWhen answer test => .takeWhen answer test.callback
  | skipWhen answer test => .skipWhen answer test.callback
  | fold seed folder limit => .fold seed (folding folder) limit.bound
  | choice first second => .choice (first.build site) (second.build site)
  | zip left right =>
    .map2 (left.build site) (right.build site) (.ofFun fun (l, r) => .list [l, r])
  | map2 left right folder => .map2 (left.build site) (right.build site) (folding folder)
  | bind stage cases =>
    .bind (.compose (stage.build site) (choosing (cases.map (·.1))))
      (chosen (buildCases site cases))
  | flatten cases => .flatten (choosing (cases.map (·.1))) (chosen (buildCases site cases))
  | each => .compose (plain Value.items) .each
  | countUp => .compose (plain fun | .int n => n.toInt.toNat | _ => 0)
    (.compose .countUp (plain fun n => .int (.ofNat n)))
  | stream => .compose (plain fun v => Feed.ofList v.items) .stream
  | observe => .compose (plain fun v => Feed.ofList (v.items.map Value.toItem)) .observe
  | count label => .inspect (Effect.plain fun _ => modify (·.countCall label))
  | reject label message => .reject <| Effect.plain fun _ => do
    modify (·.countCall label)
    return .message message
  | scope inner => .scope (inner.build site)
  | scopeMany inner => .compose (.scopeMany (inner.build site)) (plain Value.list)
  | acquire label refusal panics =>
    .compose
      (.acquire (openNamed label refusal) fun shared =>
        disposing shared.handle shared.resource (if panics then .panic else .done))
      (plain fun shared => .resource shared.handle shared.resource 0)
  | release => .release Value.handle?
  | bimap left right =>
    .compose asBranch (.compose (.bimap (left.build site) (right.build site)) asValue)
  | andThen first second =>
    .compose
      (.andThen (.compose (first.build site) asBranch) (.compose (second.build site) asBranch))
      asValue
  | andThenFun first f =>
    .compose
      (.andThenFun (.compose (first.build site) asBranch) (f.callback.map Value.toBranch)) asValue
  | andThenMap first second =>
    .compose (.andThenMap (.compose (first.build site) asBranch) (second.build site)) asValue
  | expectRight => .compose asBranch (.expectRight id)
  | collapse onLeft onRight => .compose asBranch (.collapse onLeft.callback onRight.callback)
  | collapseWith stage onLeft onRight =>
    .collapseWith (.compose (stage.build site) asBranch) onLeft.callback onRight.callback
  | retry inner schedule accept wait =>
    .retry (inner.build site) schedule (wait.sleeper site) accept.callback
  | foldAttempts inner schedule seed folder limit wait =>
    .foldAttempts (inner.build site) schedule (wait.sleeper site) seed (folding folder)
      limit.bound

/-- The stages that some pipelines describe. -/
def buildAll (site : Site) : List Pipeline → List Pipe
  | [] => []
  | stage :: rest => stage.build site :: buildAll site rest

/-- The stages of some cases. -/
def buildCases (site : Site) : List (Predicate × Pipeline) → List Pipe
  | [] => []
  | (_, stage) :: rest => stage.build site :: buildCases site rest

end

end Pipeline

end Transduction.Blueprint
