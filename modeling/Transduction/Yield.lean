import Transduction.Failure

/-!
# What a run yields

A run yields no value, one value, several values or a failure. The four shapes are kept apart:
a list of one value made by hand is not the same as one value.

## Main definitions

* `Yield`: the four shapes.
* `Yield.ofList`: the shape of a collected list of values.
* `Yield.append`: joining two yields; failures win over values and are combined with each other.
* `Yield.values`, `Yield.first`, `Yield.collect`: reading the values back out.

## Main results

* `Yield.none_append`, `Yield.append_none`: yielding nothing is neutral for joining.
* `Yield.values_ofList`: collecting a list and reading it back gives the list.
-/

namespace Transduction

/-- What a run yields. -/
inductive Yield (α : Type) where
  | none
  | one (value : α)
  | many (values : List α)
  | fail (failure : Failure)

namespace Yield

variable {α β : Type}

/-- The shape of a list of values: nothing, one value, or several. -/
def ofList : List α → Yield α
  | [] => none
  | [value] => one value
  | values => many values

/-- The shape of a value that may be missing. -/
def ofOption : Option α → Yield α
  | .none => none
  | .some value => one value

/-- The values of a yield; a failure has none. -/
def toList : Yield α → List α
  | none => []
  | one value => [value]
  | many values => values
  | fail _ => []

/-- Whether the run yielded nothing at all; an empty list of several does not count. -/
def isNone : Yield α → Bool
  | none => true
  | _ => false

/-- Whether the run failed. -/
def isFail : Yield α → Bool
  | fail _ => true
  | _ => false

/-- Whether the yield has the shape of one or of several values. -/
def isSome : Yield α → Bool
  | one _ => true
  | many _ => true
  | _ => false

/-- How many values there are. -/
def size (yield : Yield α) : Nat := yield.toList.length

/-- Whether there are no values. -/
def isEmpty (yield : Yield α) : Bool := yield.size == 0

/-- The failure, if there is one. -/
def failure? : Yield α → Option Failure
  | fail failure => some failure
  | _ => .none

/-- Joins two yields. Two failures are combined, a failure wins over values, yielding nothing is
neutral, and otherwise the values are put one after the other. -/
def append : Yield α → Yield α → Yield α
  | fail first, fail second => fail (first.combine second)
  | fail failure, _ => fail failure
  | _, fail failure => fail failure
  | none, second => second
  | first, none => first
  | first, second => many (first.toList ++ second.toList)

instance : Append (Yield α) := ⟨append⟩

/-- Applies a function to every value, keeping the shape. -/
def map (f : α → β) : Yield α → Yield β
  | none => none
  | one value => one (f value)
  | many values => many (values.map f)
  | fail failure => fail failure

/-- Applies an effectful function to every value in order, keeping the shape. -/
def mapM {m : Type → Type} [Monad m] (f : α → m β) : Yield α → m (Yield β)
  | none => pure none
  | one value => one <$> f value
  | many values => many <$> values.mapM f
  | fail failure => pure (fail failure)

/-- The values, or the failure. -/
def values : Yield α → Except Failure (List α)
  | fail failure => .error failure
  | yield => .ok yield.toList

/-- The first value if there is one, or the failure. -/
def first (yield : Yield α) : Except Failure (Option α) := List.head? <$> yield.values

/-- The values of all yields in order, or the failure of the first that failed. -/
def collect : List (Yield α) → Except Failure (List α)
  | [] => .ok []
  | yield :: rest =>
    match yield.values with
    | .error failure => .error failure
    | .ok here => (here ++ ·) <$> collect rest

@[simp] theorem toList_ofList (values : List α) : (ofList values).toList = values := by
  match values with
  | [] => rfl
  | [_] => rfl
  | _ :: _ :: _ => rfl

theorem isFail_ofList (values : List α) : (ofList values).isFail = false := by
  match values with
  | [] => rfl
  | [_] => rfl
  | _ :: _ :: _ => rfl

@[simp] theorem values_ofList (values : List α) : (ofList values).values = .ok values := by
  match values with
  | [] => rfl
  | [_] => rfl
  | _ :: _ :: _ => rfl

@[simp] theorem none_append (yield : Yield α) : (none : Yield α).append yield = yield := by
  cases yield <;> rfl

@[simp] theorem append_none (yield : Yield α) : yield.append none = yield := by
  cases yield <;> rfl

theorem toList_map (f : α → β) (yield : Yield α) : (yield.map f).toList = yield.toList.map f := by
  cases yield <;> rfl

end Yield

end Transduction
