import Transduction.Yield
import Transduction.Verdict

/-!
# Expectations

What a test of a pipeline expects of its result. An expectation that is met gives what is of
interest about the result, and one that is not met gives nothing.

## Main definitions

* `Expect.one`, `Expect.many`, `Expect.none`, `Expect.failed`: expectations of what a run yields.
* `Expect.complete`, `Expect.proceed`: expectations of a verdict.
-/

namespace Transduction.Expect

variable {α X S : Type}

/-- Exactly one value, equal to the expected one. -/
def one [BEq α] (yield : Yield α) (expected : α) : Bool :=
  match yield with
  | .one value => value == expected
  | _ => false

/-- Values equal to the expected ones, in whatever shape. -/
def many [BEq α] (yield : Yield α) (expected : List α) : Bool :=
  match yield.values with
  | .ok values => values == expected
  | .error _ => false

/-- Nothing. -/
def none (yield : Yield α) : Bool := yield.isNone

/-- A failure. -/
def failed (yield : Yield α) : Option Failure := yield.failure?

/-- A verdict that stops with an accumulator. -/
def complete : Verdict X S → Option S
  | .complete acc => some acc
  | _ => Option.none

/-- A verdict that goes on with an accumulator. -/
def proceed : Verdict X S → Option S
  | .proceed acc => some acc
  | _ => Option.none

end Transduction.Expect
