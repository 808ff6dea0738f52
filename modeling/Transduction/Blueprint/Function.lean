import Transduction.Blueprint.Journal

/-!
# Functions of written pipelines

A small language of functions, tests and folds on values. Some of them count their calls; the
counter belongs to the place at which they are written.

## Main definitions

* `Predicate`, `Predicate.eval`: tests.
* `Function`, `Function.eval`: functions.
* `Folder`, `Folder.eval`: functions of an accumulator and a value.
-/

namespace Transduction.Blueprint

/-! ### Tests -/

/-- A test on values. -/
inductive Predicate where
  | always
  | never
  | lt (bound : Int64)
  | le (bound : Int64)
  | gt (bound : Int64)
  | ge (bound : Int64)
  | even
  | same (value : Value)
  | startsWith (text : String)
  | isText
  | isLeft
  | isRight
  | isFail
  | not (test : Predicate)
  /-- True on one call only, counted from one. -/
  | nth (place : Nat) (call : Nat)

namespace Predicate

/-- Whether a value is a number with a property. -/
def onInt (test : Int64 → Bool) : Value → Bool
  | .int n => test n
  | _ => false

/-- Applies a test. -/
def eval : Predicate → Value → Effect Bool
  | always, _ => pure true
  | never, _ => pure false
  | lt bound, v => pure (onInt (· < bound) v)
  | le bound, v => pure (onInt (· ≤ bound) v)
  | gt bound, v => pure (onInt (bound < ·) v)
  | ge bound, v => pure (onInt (bound ≤ ·) v)
  | even, v => pure (onInt (fun n => n.toInt % 2 = 0) v)
  | same value, v => pure (v.same value)
  | startsWith text, .text s => pure (text.toList.isPrefixOf s.toList)
  | startsWith _, _ => pure false
  | isText, .text _ => pure true
  | isText, _ => pure false
  | isLeft, .left _ => pure true
  | isLeft, _ => pure false
  | isRight, .right _ => pure true
  | isRight, _ => pure false
  | isFail, .fail _ => pure true
  | isFail, _ => pure false
  | not test, v => (!·) <$> test.eval v
  | nth place call, _ => (· == call) <$> Effect.bump place

/-- A test as foreign code. -/
def callback (test : Predicate) : Callback Journal Value Bool := Effect.plain test.eval

end Predicate

/-! ### Functions -/

/-- A function on values. -/
inductive Function where
  | id
  | add (n : Int64)
  | mul (n : Int64)
  | neg
  | display
  | tag (text : String)
  | const (value : Value)
  | length
  | wrap
  | replicate (count : Nat)
  | countUp
  | left
  | right
  | fail (failure : Failure)
  | strip
  | ite (test : Predicate) (yes no : Function)
  | sequence (functions : List Function)
  /-- The number of the call. -/
  | tick (place : Nat)
  /-- The items in turn, one for each call, and the last one again after that. -/
  | script (place : Nat) (items : List Value)
  | resourceName
  | resourceReleases
  | panic (message : String)

namespace Function

/-- Applies a function to a number; other values pass unchanged. -/
def onInt (f : Int64 → Int64) : Value → Value
  | .int n => .int (f n)
  | v => v

/-- The length of a text in characters, or of a list in items. -/
def lengthOf : Value → Value
  | .text s => .int (.ofNat s.length)
  | .list items => .int (.ofNat items.length)
  | v => v

/-- The numbers below a number. -/
def numbersBelow : Value → Value
  | .int n => .list ((List.range n.toInt.toNat).map fun i => .int (.ofNat i))
  | v => .list [v]

/-- What is inside a left or right value. -/
def stripped : Value → Value
  | .left v => v
  | .right v => v
  | v => v

mutual

/-- Applies a function. -/
def eval : Function → Value → Effect Value
  | id, v => pure v
  | add n, v => pure (onInt (· + n) v)
  | mul n, v => pure (onInt (· * n) v)
  | neg, v => pure (onInt (-·) v)
  | display, v => pure (.text v.display)
  | tag text, v => pure (.text (text ++ v.display))
  | const value, _ => pure value
  | length, v => pure (lengthOf v)
  | wrap, v => pure (.list [v])
  | replicate count, v => pure (.list (List.replicate count v))
  | countUp, v => pure (numbersBelow v)
  | left, v => pure (.left v)
  | right, v => pure (.right v)
  | fail failure, _ => pure (.fail failure)
  | strip, v => pure (stripped v)
  | ite test yes no, v => do if ← test.eval v then yes.eval v else no.eval v
  | sequence functions, v => evalAll functions v
  | tick place, _ => (fun n => .int (.ofNat n)) <$> Effect.bump place
  | script place items, _ =>
    (fun n => (items[n - 1]? <|> items.getLast?).getD .unit) <$> Effect.bump place
  | resourceName, .resource _ name _ => pure (.text name)
  | resourceName, v => pure v
  | resourceReleases, .resource handle _ _ => do
    return .int (.ofNat ((← get).releasesOf handle))
  | resourceReleases, v => pure v
  | panic message, _ => throw message

/-- Applies functions one after the other. -/
def evalAll : List Function → Value → Effect Value
  | [], v => pure v
  | f :: rest, v => do evalAll rest (← f.eval v)

end

/-- A function as foreign code. -/
def callback (f : Function) : Callback Journal Value Value := Effect.plain f.eval

end Function

/-! ### Folds -/

/-- A function of an accumulator and a value. -/
inductive Folder where
  | sum
  | sub
  | max
  | first
  | last
  | concat
  | push

/-- Combines an accumulator with a value. -/
def Folder.eval : Folder → Value → Value → Value
  | sum, .int a, .int b => .int (a + b)
  | sum, acc, _ => acc
  | sub, .int a, .int b => .int (a - b)
  | sub, acc, _ => acc
  | max, .int a, .int b => .int (if a < b then b else a)
  | max, acc, _ => acc
  | first, acc, _ => acc
  | last, _, v => v
  | concat, acc, v => .text (acc.display ++ v.display)
  | push, .list items, v => .list (items ++ [v])
  | push, acc, v => .list [acc, v]

end Transduction.Blueprint
