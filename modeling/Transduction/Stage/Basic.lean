import Transduction.Schedule.Sleeper
import Transduction.Feed
import Transduction.Branch
import Transduction.Sink

/-!
# Stages

A stage is the description of one step of a pipeline, from values of one type to values of
another. Pipelines are stages too: composition, alternatives, scopes and schedules build stages
from stages. A description holds no state; what a stage has to remember from one value to the next
is the state of an instance of it, which every run makes anew.

## Main definitions

* `Shared`: a resource with the handle it is registered under.
* `Bound`: when a fold stops by itself.
* `Stage`: the descriptions.
* `Stage.State`, `Stage.init`: the state of an instance.
-/

namespace Transduction

/-- A resource with the handle it is registered under. -/
structure Shared (R : Type) where
  handle : Handle
  resource : R

/-- When a fold stops by itself. -/
inductive Bound (σ T : Type) where
  /-- It does not. -/
  | unbounded
  /-- Before the first folded value that satisfies a test. -/
  | untilHolds (test : Callback σ T Bool)
  /-- After the first folded value that fails a test. -/
  | whileHolds (test : Callback σ T Bool)

/-- The stages from `A` to `B`, with callbacks acting on `σ` and alternates in `X`. -/
inductive Stage (σ X : Type) : Type → Type → Type 1 where
  /-- Passes every value on. -/
  | identity {A : Type} : Stage σ X A A
  /-- Applies a function to every value. -/
  | map {A B : Type} (f : Callback σ A B) : Stage σ X A B
  /-- Passes on the values that satisfy a test. -/
  | filter {A : Type} (test : Callback σ A Bool) : Stage σ X A A
  /-- Applies a function and passes on what it gives, where it gives something. -/
  | filterMap {A B : Type} (f : Callback σ A (Option B)) : Stage σ X A B
  /-- Shows every value to a callback and passes it on. -/
  | inspect {A : Type} (look : Callback σ A Unit) : Stage σ X A A
  /-- Passes on a fixed value for every value. -/
  | constant {A B : Type} (value : B) : Stage σ X A B
  /-- Feeds what one stage passes on to another. -/
  | compose {A I B : Type} (first : Stage σ X A I) (second : Stage σ X I B) : Stage σ X A B
  /-- Passes on a number of values, then completes. -/
  | take {A : Type} (count : Nat) : Stage σ X A A
  /-- Passes values on while a test answers as asked, then completes. -/
  | takeWhen {A : Type} (answer : Bool) (test : Callback σ A Bool) : Stage σ X A A
  /-- Drops a number of values, then passes on all. -/
  | skip {A : Type} (count : Nat) : Stage σ X A A
  /-- Drops values while a test answers as asked, then passes on all. -/
  | skipWhen {A : Type} (answer : Bool) (test : Callback σ A Bool) : Stage σ X A A
  /-- Folds the values and passes on every folded value. -/
  | fold {A T : Type} (seed : T) (f : Callback σ (T × A) T) (bound : Bound σ T) : Stage σ X A T
  /-- Feeds a value to one stage, and to another if the first one fails. -/
  | choice {A B : Type} (first second : Stage σ X A B) : Stage σ X A B
  /-- Feeds a value to two stages and passes on the pair of the first values they pass on. -/
  | zip {A B C : Type} (left : Stage σ X A B) (right : Stage σ X A C) : Stage σ X A (B × C)
  /-- Runs a new instance of the stage that is chosen by each value of another. -/
  | flatten {A I B : Type} (outer : Stage σ X A I) (inner : I → Stage σ X Unit B) : Stage σ X A B
  /-- Passes on the items of a list. -/
  | each {A : Type} : Stage σ X (List A) A
  /-- Passes on the numbers below a number. -/
  | countUp : Stage σ X Nat Nat
  /-- Passes on the items of a feed, read as values or failures. -/
  | drain {A B : Type} (lift : A → Except Failure B) : Stage σ X (Feed A) B
  /-- Fails on every value. -/
  | reject {A B : Type} (failure : Callback σ A Failure) : Stage σ X A B
  /-- Runs a stage in a scope of its own, and passes on the first value from it. -/
  | scope {A B : Type} (inner : Stage σ X A B) : Stage σ X A B
  /-- Runs a stage in a scope of its own, and passes on all values from it as one list. -/
  | scopeMany {A B : Type} (inner : Stage σ X A B) : Stage σ X A (List B)
  /-- Opens a resource for every value and registers it in the current scope. -/
  | acquire {A R : Type} (openResource : Callback σ A (Except Failure R))
      (disposal : Shared R → Disposal σ) : Stage σ X A (Shared R)
  /-- Releases the resource that a value stands for, if it is registered in the current scope. -/
  | release {A : Type} (handle? : A → Option Handle) : Stage σ X A A
  /-- Feeds left values to one stage and right values to another. -/
  | bimap {L L' R R' : Type} (left : Stage σ X L L') (right : Stage σ X R R') :
      Stage σ X (Branch L R) (Branch L' R')
  /-- Feeds right values to a stage and passes on all others. -/
  | bindRight {L A B : Type} (inner : Stage σ X A (Branch L B)) :
      Stage σ X (Branch L A) (Branch L B)
  /-- Passes on right values; a left value ends the run as an alternate. -/
  | expectRight {L A : Type} (toAlternate : L → X) : Stage σ X (Branch L A) A
  /-- Brings both channels together. -/
  | collapse {L R C : Type} (onLeft : Callback σ L C) (onRight : Callback σ R C) :
      Stage σ X (Branch L R) C
  /-- Runs a stage on a value again and again, until its last value is accepted. -/
  | retry {A B : Type} (inner : Stage σ X A B) (schedule : Schedule) (sleeper : Sleeper σ)
      (accept : Callback σ B Bool) : Stage σ X A B
  /-- Runs a stage on a value again and again, and folds the last values of all attempts. -/
  | foldAttempts {A B T : Type} (inner : Stage σ X A B) (schedule : Schedule)
      (sleeper : Sleeper σ) (seed : T) (f : Callback σ (T × B) T) (bound : Bound σ T) :
      Stage σ X A T

namespace Stage

variable {σ X : Type}

/-- The state of an instance of a stage. -/
def State : {A B : Type} → Stage σ X A B → Type
  | _, _, compose first second => first.State × second.State
  | _, _, take _ => Nat
  | _, _, skip _ => Nat
  | _, _, skipWhen _ _ => Bool
  | _, T, fold _ _ _ => T
  | _, _, choice first second => first.State × second.State
  | _, _, zip left right => left.State × right.State
  | _, _, flatten outer _ => outer.State
  | _, _, scope inner => inner.State
  | _, _, scopeMany inner => inner.State
  | _, _, bimap left right => left.State × right.State
  | _, _, bindRight inner => inner.State
  | _, _, identity => Unit
  | _, _, map _ => Unit
  | _, _, filter _ => Unit
  | _, _, filterMap _ => Unit
  | _, _, inspect _ => Unit
  | _, _, constant _ => Unit
  | _, _, takeWhen _ _ => Unit
  | _, _, each => Unit
  | _, _, countUp => Unit
  | _, _, drain _ => Unit
  | _, _, reject _ => Unit
  | _, _, acquire _ _ => Unit
  | _, _, release _ => Unit
  | _, _, expectRight _ => Unit
  | _, _, collapse _ _ => Unit
  | _, _, retry _ _ _ _ => Unit
  | _, _, foldAttempts _ _ _ _ _ _ => Unit

/-- The state of a new instance. -/
def init : {A B : Type} → (stage : Stage σ X A B) → stage.State
  | _, _, compose first second => (first.init, second.init)
  | _, _, take count => count
  | _, _, skip count => count
  | _, _, skipWhen _ _ => true
  | _, _, fold seed _ _ => seed
  | _, _, choice first second => (first.init, second.init)
  | _, _, zip left right => (left.init, right.init)
  | _, _, flatten outer _ => outer.init
  | _, _, scope inner => inner.init
  | _, _, scopeMany inner => inner.init
  | _, _, bimap left right => (left.init, right.init)
  | _, _, bindRight inner => inner.init
  | _, _, identity => ()
  | _, _, map _ => ()
  | _, _, filter _ => ()
  | _, _, filterMap _ => ()
  | _, _, inspect _ => ()
  | _, _, constant _ => ()
  | _, _, takeWhen _ _ => ()
  | _, _, each => ()
  | _, _, countUp => ()
  | _, _, drain _ => ()
  | _, _, reject _ => ()
  | _, _, acquire _ _ => ()
  | _, _, release _ => ()
  | _, _, expectRight _ => ()
  | _, _, collapse _ _ => ()
  | _, _, retry _ _ _ _ => ()
  | _, _, foldAttempts _ _ _ _ _ _ => ()

end Stage

end Transduction
