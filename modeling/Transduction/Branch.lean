import Transduction.Failure

/-!
# Branching values

A value on one of two channels, or a failure that belongs to neither. The right channel is the
ordinary one; the left channel carries values set aside.

## Main definitions

* `Branch`: a left value, a right value or a failure.
* `Branch.bimap`, `Branch.mapLeft`, `Branch.mapRight`: acting on the channels.
* `Branch.bimapM`: the same with effects.

## Main results

* `Branch.bimap_id`, `Branch.bimap_bimap`: acting on both channels is functorial.
* `Branch.filterMap_map_left`, `Branch.filterMap_map_right`: the values of each channel.
-/

namespace Transduction

/-- A value on one of two channels, or a failure. -/
inductive Branch (L R : Type) where
  | left (value : L)
  | right (value : R)
  | fail (failure : Failure)

namespace Branch

variable {L L' L'' R R' R'' : Type}

/-- A result as a branch: a value is on the right channel. -/
def ofExcept : Except Failure R → Branch L R
  | .ok value => right value
  | .error failure => fail failure

def isLeft : Branch L R → Bool
  | left _ => true
  | _ => false

def isRight : Branch L R → Bool
  | right _ => true
  | _ => false

def isFail : Branch L R → Bool
  | fail _ => true
  | _ => false

/-- The left value, if it is one. -/
def left? : Branch L R → Option L
  | left value => some value
  | _ => none

/-- The right value, if it is one. -/
def right? : Branch L R → Option R
  | right value => some value
  | _ => none

/-- Applies one function to left values and another to right values. -/
def bimap (f : L → L') (g : R → R') : Branch L R → Branch L' R'
  | left value => left (f value)
  | right value => right (g value)
  | fail failure => fail failure

/-- Applies a function to left values. -/
def mapLeft (f : L → L') : Branch L R → Branch L' R := bimap f id

/-- Applies a function to right values. -/
def mapRight (g : R → R') : Branch L R → Branch L R' := bimap id g

/-- Applies effectful functions to left and right values. -/
def bimapM {m : Type → Type} [Monad m] (f : L → m L') (g : R → m R') :
    Branch L R → m (Branch L' R')
  | left value => left <$> f value
  | right value => right <$> g value
  | fail failure => pure (fail failure)

@[simp] theorem bimap_id (branch : Branch L R) : branch.bimap id id = branch := by
  cases branch <;> rfl

@[simp] theorem bimap_bimap (f : L → L') (f' : L' → L'') (g : R → R') (g' : R' → R'')
    (branch : Branch L R) :
    (branch.bimap f g).bimap f' g' = branch.bimap (f' ∘ f) (g' ∘ g) := by
  cases branch <;> rfl

@[simp] theorem left?_left (value : L) : (left value : Branch L R).left? = some value := rfl

@[simp] theorem left?_right (value : R) : (right value : Branch L R).left? = none := rfl

@[simp] theorem right?_left (value : L) : (left value : Branch L R).right? = none := rfl

@[simp] theorem right?_right (value : R) : (right value : Branch L R).right? = some value := rfl

/-- Left values are all the values of their channel, and none of the other one. -/
theorem filterMap_map_left (values : List L) :
    (values.map (left : L → Branch L R)).filterMap left? = values ∧
      (values.map (left : L → Branch L R)).filterMap right? = [] := by
  constructor <;> induction values <;> simp_all

/-- Right values are all the values of their channel, and none of the other one. -/
theorem filterMap_map_right (values : List R) :
    (values.map (right : R → Branch L R)).filterMap left? = [] ∧
      (values.map (right : R → Branch L R)).filterMap right? = values := by
  constructor <;> induction values <;> simp_all

end Branch

end Transduction
