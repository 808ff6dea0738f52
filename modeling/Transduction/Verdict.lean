import Transduction.Failure

/-!
# Verdicts

The verdict on one value fed through a stage: go on with the accumulator, stop with the
accumulator, stop with a failure, or stop on an alternate value that no stage downstream expects.

## Main definitions

* `TypeNamed`: types whose values can say the name of their type.
* `Verdict`: the four verdicts.
* `Verdict.completed`: the same verdict, but never asking for more.
* `Verdict.result`: the accumulator, or the failure that a run with this verdict ends with.

## Main results

* `Verdict.isTerminal_completed`: a completed verdict is terminal.
* `Verdict.completed_of_isTerminal`: completing changes only the verdict that asks for more.
-/

namespace Transduction

/-- Types whose values can say the name of their type. -/
class TypeNamed (X : Type) where
  typeName : X → String

/-- The failure of a run that ends on an alternate value. -/
def Failure.ofAlternate {X : Type} [TypeNamed X] (alternate : X) : Failure :=
  .unexpectedAlternate (TypeNamed.typeName alternate)

/-- The verdict on one value, with alternates in `X` and accumulators in `S`. -/
inductive Verdict (X S : Type) where
  /-- Ready for the next value. -/
  | proceed (acc : S)
  /-- Stop; the accumulator is final. -/
  | complete (acc : S)
  /-- Stop with a failure. -/
  | fail (failure : Failure)
  /-- Stop on an alternate value. -/
  | alternate (value : X)

namespace Verdict

variable {X S T : Type}

def isProceed : Verdict X S → Bool
  | proceed _ => true
  | _ => false

def isComplete : Verdict X S → Bool
  | complete _ => true
  | _ => false

def isFail : Verdict X S → Bool
  | fail _ => true
  | _ => false

def isAlternate : Verdict X S → Bool
  | alternate _ => true
  | _ => false

/-- Whether no further value may follow. -/
def isTerminal (verdict : Verdict X S) : Bool := !verdict.isProceed

/-- The accumulator, where there is one. -/
def acc? : Verdict X S → Option S
  | proceed acc => some acc
  | complete acc => some acc
  | fail _ => none
  | alternate _ => none

/-- Applies a function to the accumulator. -/
def map (f : S → T) : Verdict X S → Verdict X T
  | proceed acc => proceed (f acc)
  | complete acc => complete (f acc)
  | fail failure => fail failure
  | alternate value => alternate value

/-- Applies an effectful function to the accumulator. -/
def mapM {m : Type → Type} [Monad m] (f : S → m T) : Verdict X S → m (Verdict X T)
  | proceed acc => proceed <$> f acc
  | complete acc => complete <$> f acc
  | fail failure => pure (fail failure)
  | alternate value => pure (alternate value)

/-- The same verdict, except that going on becomes stopping. -/
def completed : Verdict X S → Verdict X S
  | proceed acc => complete acc
  | verdict => verdict

/-- The accumulator, or the failure that a run with this verdict ends with. -/
def result [TypeNamed X] : Verdict X S → Except Failure S
  | proceed acc => .ok acc
  | complete acc => .ok acc
  | fail failure => .error failure
  | alternate value => .error (.ofAlternate value)

@[simp] theorem isTerminal_completed (verdict : Verdict X S) :
    verdict.completed.isTerminal = true := by
  cases verdict <;> rfl

theorem completed_of_isTerminal {verdict : Verdict X S} (h : verdict.isTerminal = true) :
    verdict.completed = verdict := by
  cases verdict <;> simp_all [completed, isTerminal, isProceed]

@[simp] theorem completed_completed (verdict : Verdict X S) :
    verdict.completed.completed = verdict.completed := by
  cases verdict <;> rfl

@[simp] theorem acc?_completed (verdict : Verdict X S) :
    verdict.completed.acc? = verdict.acc? := by
  cases verdict <;> rfl

end Verdict

end Transduction
