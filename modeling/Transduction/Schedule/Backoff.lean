import Transduction.Schedule.Jitter
import Transduction.Json.Reader
import Transduction.Json.Decode

/-!
# Backoff plans

A finite retry schedule described by numbers: how often to retry, the first delay, the longest
delay, how delays grow, and the jitter. Delays are counted in milliseconds of 64 bits; a larger
number is cut to the largest.

## Main definitions

* `Growth`: how delays grow from one retry to the next.
* `Growth.doubledFrom`, `Growth.fibonacciFrom`: growing numbers, cut to 64 bits at every step.
* `Growth.factor`: the multiple of the first delay for a retry.
* `Backoff`: a plan, with its default.
* `Backoff.baseDelay`, `Backoff.delay`: the delay before a retry, without and with jitter.
* `Backoff.toJson`, `Backoff.ofJson?`: the JSON form, a record in which every member may be missing.

## Main results

* `Backoff.delay_le_baseDelay`: jitter stays within the planned delay.
-/

namespace Transduction

/-- How delays grow from one retry to the next. -/
inductive Growth where
  | exponential
  | linear
  | constant
  | fibonacci
  deriving DecidableEq, Repr

namespace Growth

/-- The largest number of 64 bits. -/
def cap : Nat := 18446744073709551615

/-- The largest number of 32 bits. -/
def exponentCap : Nat := 4294967295

/-- A number doubled again and again, cut to 64 bits each time. At the largest number nothing
changes any more. -/
def doubledFrom : Nat → Nat → Nat
  | 0, a => a
  | n + 1, a => if a = cap then a else doubledFrom n (min (a * 2) cap)

/-- The first of two neighbouring Fibonacci numbers, some steps after the given pair, with each sum
cut to 64 bits. At the largest number nothing changes any more. -/
def fibonacciFrom : Nat → Nat → Nat → Nat
  | 0, a, _ => a
  | n + 1, a, b => if a = cap then a else fibonacciFrom n b (min (a + b) cap)

/-- The multiple of the first delay for a retry, counted from zero and cut to 64 bits. An exponent is
cut to 32 bits, and the number of the retry after this one to 64. -/
def factor : Growth → Nat → Nat
  | exponential, retry => doubledFrom (min retry exponentCap) 1
  | linear, retry => min (retry + 1) cap
  | constant, _ => 1
  | fibonacci, retry => fibonacciFrom (min (retry + 1) cap) 0 1

/-- The names of the strategies. -/
def names : List (String × Growth) :=
  [("exponential", exponential), ("linear", linear), ("constant", constant),
    ("fibonacci", fibonacci)]

def name : Growth → String
  | exponential => "exponential"
  | linear => "linear"
  | constant => "constant"
  | fibonacci => "fibonacci"

/-- Every strategy is found under its name. -/
theorem lookup_name (growth : Growth) : names.lookup growth.name = some growth := by
  cases growth <;> rfl

end Growth

namespace Jitter

/-- The names of the strategies. -/
def names : List (String × Jitter) := [("none", none), ("full", full), ("equal", equal)]

def name : Jitter → String
  | none => "none"
  | full => "full"
  | equal => "equal"

/-- Every strategy is found under its name. -/
theorem lookup_name (jitter : Jitter) : names.lookup jitter.name = some jitter := by
  cases jitter <;> rfl

end Jitter

/-- A finite retry schedule described by numbers. -/
structure Backoff where
  maxRetries : Nat := 3
  baseMillis : Nat := 1000
  maxMillis : Nat := 30000
  growth : Growth := .exponential
  jitter : Jitter := .full
  deriving DecidableEq, Repr

namespace Backoff

/-- The plan used where nothing else is said. -/
def default : Backoff := {}

/-- The milliseconds planned before a retry, counted from zero. -/
def baseMillisFor (plan : Backoff) (retry : Nat) : Nat :=
  min (min (plan.baseMillis * plan.growth.factor retry) Growth.cap) plan.maxMillis

/-- The delay planned before a retry. -/
def baseDelay (plan : Backoff) (retry : Nat) : Duration := .ofMillis (plan.baseMillisFor retry)

/-- The delay before a retry, with jitter. -/
def delay (plan : Backoff) (retry : Nat) (dice : Dice) : Duration × Dice :=
  plan.jitter.apply (plan.baseDelay retry) dice

theorem delay_le_baseDelay (plan : Backoff) (retry : Nat) (dice : Dice) :
    (plan.delay retry dice).1 ≤ plan.baseDelay retry :=
  Jitter.nanos_apply_le _ _ _

/-! ### JSON form -/

/-- The JSON form. -/
def toJson (plan : Backoff) : Json :=
  .record [("max_retries", .nat plan.maxRetries), ("base_delay_ms", .nat plan.baseMillis),
    ("max_delay_ms", .nat plan.maxMillis), ("backoff", .text plan.growth.name),
    ("jitter", .text plan.jitter.name)]

/-- Reads the JSON form; a missing member takes its default. -/
def ofJson? (json : Json) : Option Backoff :=
  match json.members? ["max_retries", "base_delay_ms", "max_delay_ms", "backoff", "jitter"] with
  | some [maxRetries, baseMillis, maxMillis, growth, jitter] => do
    return {
      maxRetries := ← Json.optional? Json.word64? default.maxRetries maxRetries
      baseMillis := ← Json.optional? Json.word64? default.baseMillis baseMillis
      maxMillis := ← Json.optional? Json.word64? default.maxMillis maxMillis
      growth := ← Json.optional? (Json.choice? Growth.names) default.growth growth
      jitter := ← Json.optional? (Json.choice? Jitter.names) default.jitter jitter }
  | _ => none

/-- Why a text is no plan. -/
def invalid : String := "Invalid schedule config"

/-- Reads a plan from JSON text. -/
def parse (text : String) : Except String Backoff :=
  match (Json.parse? text).bind ofJson? with
  | some plan => .ok plan
  | none => .error invalid

/-- Whether the written form of a plan is read as that plan. -/
def readsBack (plan : Backoff) : Bool :=
  match parse plan.toJson.render with
  | .ok other => plan == other
  | .error _ => false

end Backoff

end Transduction
