import Transduction.Stage.Run

/-!
# Derived stages

Stages that are combinations of others.

## Main definitions

* `Stage.chain`, `Stage.chainLeft`: the composition of a list of stages, bracketed to the right and
  to the left.
* `Stage.bind`, `Stage.map2`: choosing a stage by each value, and joining two stages by a function.
* `Stage.stream`, `Stage.observe`: the sources that read feeds.
* `Stage.mapLeft`, `Stage.filterLeft`, `Stage.bitake` and the like: stages on the channels.
* `Stage.andThen`, `Stage.andThenFun`, `Stage.andThenMap`: going on with right values.
-/

namespace Transduction.Stage

variable {σ X A B C D L L' R R' : Type}

/-- The composition of stages on one type, bracketed to the right. -/
def chain : List (Stage σ X A A) → Stage σ X A A
  | [] => identity
  | [stage] => stage
  | stage :: rest => compose stage (chain rest)

/-- The composition of stages on one type, bracketed to the left. -/
def chainLeft : List (Stage σ X A A) → Stage σ X A A
  | [] => identity
  | stage :: rest => rest.foldl compose stage

/-- Runs the stage that a function chooses for each value of a stage. -/
def bind (stage : Stage σ X A B) (f : B → Stage σ X Unit C) : Stage σ X A C := flatten stage f

/-- Joins the first values of two stages by a function. -/
def map2 (left : Stage σ X A B) (right : Stage σ X A C) (f : Callback σ (B × C) D) :
    Stage σ X A D :=
  compose (zip left right) (map f)

/-- Passes on the items of a feed of values. -/
def stream : Stage σ X (Feed A) A := drain .ok

/-- Passes on the items of a feed of values and failures; a failure ends the run. -/
def observe : Stage σ X (Feed (Except Failure A)) A := drain id

/-! ### Channels -/

/-- A stage on left values. -/
def mapLeft (left : Stage σ X L L') : Stage σ X (Branch L R) (Branch L' R) := bimap left identity

/-- A stage on right values. -/
def mapRight (right : Stage σ X R R') : Stage σ X (Branch L R) (Branch L R') :=
  bimap identity right

/-- Passes on the left values that satisfy a test, and all right values. -/
def filterLeft (test : Callback σ L Bool) : Stage σ X (Branch L R) (Branch L R) :=
  mapLeft (filter test)

/-- Passes on the right values that satisfy a test, and all left values. -/
def filterRight (test : Callback σ R Bool) : Stage σ X (Branch L R) (Branch L R) :=
  mapRight (filter test)

/-- Filters both channels. -/
def bifilter (left : Callback σ L Bool) (right : Callback σ R Bool) :
    Stage σ X (Branch L R) (Branch L R) :=
  bimap (filter left) (filter right)

/-- Takes a number of values from each channel; the first one too many completes. -/
def bitake (left right : Nat) : Stage σ X (Branch L R) (Branch L R) :=
  bimap (take left) (take right)

/-- Skips a number of values on each channel. -/
def biskip (left right : Nat) : Stage σ X (Branch L R) (Branch L R) :=
  bimap (skip left) (skip right)

/-- Takes values from each channel while a test answers as asked. -/
def bitakeWhen (answer : Bool) (left : Callback σ L Bool) (right : Callback σ R Bool) :
    Stage σ X (Branch L R) (Branch L R) :=
  bimap (takeWhen answer left) (takeWhen answer right)

/-- Skips values on each channel while a test answers as asked. -/
def biskipWhen (answer : Bool) (left : Callback σ L Bool) (right : Callback σ R Bool) :
    Stage σ X (Branch L R) (Branch L R) :=
  bimap (skipWhen answer left) (skipWhen answer right)

/-- Goes on with the right values of a stage. -/
def andThen (first : Stage σ X A (Branch L B)) (second : Stage σ X B (Branch L C)) :
    Stage σ X A (Branch L C) :=
  compose first (bindRight second)

/-- Goes on with the right values of a stage by a function. -/
def andThenFun (first : Stage σ X A (Branch L B)) (f : Callback σ B (Branch L C)) :
    Stage σ X A (Branch L C) :=
  andThen first (map f)

/-- Goes on with the right values of a stage, and keeps the outcome on the right channel. -/
def andThenMap (first : Stage σ X A (Branch L B)) (second : Stage σ X B C) :
    Stage σ X A (Branch L C) :=
  andThen first (compose second (map (.ofFun .right)))

/-- Brings both channels of the outputs of a stage together. -/
def collapseWith (stage : Stage σ X A (Branch L R)) (onLeft : Callback σ L C)
    (onRight : Callback σ R C) : Stage σ X A C :=
  compose stage (collapse onLeft onRight)

end Transduction.Stage
