import Transduction.Text.Quoted

/-!
# Cancellation tokens

A token is cancelled at most once: the first reason given for a cancellation is kept. Whoever
waits for a cancellation is told once.

## Main definitions

* `Token`: a token, with the reason it was cancelled for.
* `Token.cancel`: asking for cancellation.
* `Token.Wait`: a wait for the cancellation, and `Token.Wait.poll`, looking whether it is over.
* `Token.describe`: a token as text.

## Main results

* `Token.cancel_cancel`: a second reason is ignored.
-/

namespace Transduction

/-- A cancellation token; the reason is there as soon as it is cancelled. -/
structure Token where
  reason : Option String
  deriving DecidableEq, Repr

namespace Token

/-- A token that is not cancelled. -/
def fresh : Token := ⟨none⟩

/-- Cancels a token; only the first reason is kept. -/
def cancel (token : Token) (reason : String) : Token :=
  match token.reason with
  | some _ => token
  | none => ⟨some reason⟩

/-- Whether a token is cancelled. -/
def isCancelled (token : Token) : Bool := token.reason.isSome

/-- A token as text. -/
def describe (token : Token) : String :=
  let reason := match token.reason with
    | some r => "Some(" ++ Quoted.encode r ++ ")"
    | none => "None"
  "CancellationToken \x7b cancelled: " ++ (if token.isCancelled then "true" else "false")
    ++ ", reason: " ++ reason ++ " \x7d"

/-- A wait for the cancellation of a token: still going on, or over because it was answered. -/
inductive Wait where
  | waiting
  | over
  deriving DecidableEq, Repr

/-- What a wait answers when it is looked at. -/
inductive Answer where
  | pending
  | ready
  | done
  deriving DecidableEq, Repr

/-- Looks at a wait: it is ready once the token is cancelled, and over after that. -/
def Wait.poll (token : Token) : Wait → Answer × Wait
  | .over => (.done, .over)
  | .waiting => if token.isCancelled then (.ready, .over) else (.pending, .waiting)

@[simp] theorem reason_cancel (token : Token) (reason : String) :
    (token.cancel reason).reason = some (token.reason.getD reason) := by
  cases token with
  | mk r => cases r <;> rfl

theorem cancel_cancel (token : Token) (first second : String) :
    (token.cancel first).cancel second = token.cancel first := by
  cases token with
  | mk r => cases r <;> rfl

theorem isCancelled_cancel (token : Token) (reason : String) :
    (token.cancel reason).isCancelled = true := by
  simp [isCancelled]

end Token

end Transduction
