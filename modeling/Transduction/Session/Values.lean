import Transduction.Session.Basic
import Transduction.Blueprint.Alternate

/-!
# Values in a session

Yields, branches, verdicts and failures that are changed step by step. Functions count their calls
over all steps; a panic ends the session.

## Main definitions

* `scan`: all states of something that is changed step by step.
* `YieldOp`, `BranchOp`, `VerdictOp`: the changes.
* `yields`, `branches`, `verdicts`, `failures`: the states.
-/

namespace Transduction.Session

open Blueprint

/-- All states of something that is changed step by step, the first one included. -/
def scan {α β : Type} (change : α → β → Effect α) (state : α) : List β → Effect (List α)
  | [] => pure [state]
  | step :: rest => do return state :: (← scan change (← change state step) rest)

/-- The result of an effect in a new session. -/
def evaluate {α : Type} (effect : Effect α) : Except String α :=
  (effect.run.run (.start [])).1

/-- A change of a yield. -/
inductive YieldOp where
  | append (other : Yield Value)
  | prepend (other : Yield Value)
  | map (f : Function)

/-- Changes a yield. -/
def YieldOp.apply (yield : Yield Value) : YieldOp → Effect (Yield Value)
  | append other => pure (yield.append other)
  | prepend other => pure (other.append yield)
  | map f => yield.mapM f.eval

/-- The states of a yield. -/
def yields (start : Yield Value) (ops : List YieldOp) : Except String (List (Yield Value)) :=
  evaluate (scan YieldOp.apply start ops)

/-- A change of a branch. -/
inductive BranchOp where
  | mapLeft (f : Function)
  | mapRight (f : Function)
  | bimap (f g : Function)

/-- Changes a branch. -/
def BranchOp.apply (branch : Branch Value Value) : BranchOp → Effect (Branch Value Value)
  | mapLeft f => branch.bimapM f.eval pure
  | mapRight f => branch.bimapM pure f.eval
  | bimap f g => branch.bimapM f.eval g.eval

/-- The states of a branch. -/
def branches (start : Branch Value Value) (ops : List BranchOp) :
    Except String (List (Branch Value Value)) :=
  evaluate (scan BranchOp.apply start ops)

/-- A change of a verdict. -/
inductive VerdictOp where
  | map (f : Function)
  | completed

/-- Changes a verdict. -/
def VerdictOp.apply (verdict : Verdict Alternate Value) :
    VerdictOp → Effect (Verdict Alternate Value)
  | map f => verdict.mapM f.eval
  | completed => pure verdict.completed

/-- The states of a verdict. -/
def verdicts (start : Verdict Alternate Value) (ops : List VerdictOp) :
    Except String (List (Verdict Alternate Value)) :=
  evaluate (scan VerdictOp.apply start ops)

/-- The states of a failure that is combined with others in turn. -/
def failures (start : Failure) : List Failure → List Failure
  | [] => [start]
  | other :: rest => start :: failures (start.combine other) rest

end Transduction.Session
