/-!
# Failures

A failure is the value a run ends with when it cannot go on. It names its cause; the wording is
one function of the cause. Failures of several independent computations are kept side by side.

## Main definitions

* `Fault`: a fault raised outside the library, with the contexts added to it on its way.
* `Failure`: the causes a run can fail with.
* `Failure.text`: the wording of a failure.
* `Failure.parts`, `Failure.combine`: the failures a failure stands for, and putting two together.

## Main results

* `Failure.parts_combine`: the parts of a combination are the parts of both sides, in order.
* `Failure.combine_assoc`: combining is associative.
-/

namespace Transduction

/-- A fault raised outside the library: its outermost text, then the texts it wraps, down to the
root cause. -/
structure Fault where
  text : String
  wrapped : List String
  deriving DecidableEq, Repr

namespace Fault

/-- A fault nobody has added a context to. -/
def root (text : String) : Fault := ⟨text, []⟩

/-- All texts of a fault, outermost first and root cause last. -/
def chain (fault : Fault) : List String := fault.text :: fault.wrapped

/-- Wraps a fault in one more context, whose text becomes the text of the whole. -/
def inContext (fault : Fault) (context : String) : Fault := ⟨context, fault.chain⟩

/-- A fault with contexts added one after the other. -/
def withContexts (text : String) (contexts : List String) : Fault :=
  contexts.foldl inContext (root text)

@[simp] theorem chain_root (text : String) : (root text).chain = [text] := rfl

@[simp] theorem chain_inContext (fault : Fault) (context : String) :
    (fault.inContext context).chain = context :: fault.chain := rfl

theorem chain_foldl_inContext (fault : Fault) (contexts : List String) :
    (contexts.foldl inContext fault).chain = contexts.reverse ++ fault.chain := by
  induction contexts generalizing fault with
  | nil => rfl
  | cons c cs ih => simp [ih]

/-- The contexts come out last added first, and the root stays last. -/
theorem chain_withContexts (text : String) (contexts : List String) :
    (withContexts text contexts).chain = contexts.reverse ++ [text] := by
  simp [withContexts, chain_foldl_inContext]

end Fault

/-- Why a run failed. -/
inductive Failure where
  /-- A failure described by its text alone. -/
  | message (text : String)
  /-- A fault from outside the library. -/
  | fault (fault : Fault)
  /-- A value was required and none was produced. -/
  | bottom
  /-- A run ended on an alternate value where only ordinary values are expected. -/
  | unexpectedAlternate (typeName : String)
  /-- The run was cancelled, for the reason given. -/
  | cancelled (reason : String)
  /-- The run reached its deadline. -/
  | deadlineExceeded
  /-- Several failures at once. -/
  | many (failures : List Failure)

namespace Failure

mutual

/-- The wording of a failure; the texts of several failures are separated by semicolons. -/
def text : Failure → String
  | message t => t
  | fault f => f.text
  | bottom => "Bottom: computation produced no value"
  | unexpectedAlternate name => "Unexpected alternate value of type " ++ name
  | cancelled reason => "Pipeline cancelled: " ++ reason
  | deadlineExceeded => "Deadline exceeded"
  | many failures => "; ".intercalate (texts failures)

/-- The wordings of a list of failures, in order. -/
def texts : List Failure → List String
  | [] => []
  | failure :: rest => failure.text :: texts rest

end

theorem texts_eq_map (failures : List Failure) : texts failures = failures.map text := by
  induction failures with
  | nil => rfl
  | cons f fs ih => simp [texts, ih]

/-- The failures a failure stands for: its members if it is several, itself otherwise. -/
def parts : Failure → List Failure
  | many failures => failures
  | failure => [failure]

/-- Two failures at once: one level of each side is opened, so that repeated combining does not
nest. -/
def combine (first second : Failure) : Failure := many (first.parts ++ second.parts)

/-- Whether a value was missing. -/
def isBottom : Failure → Bool
  | bottom => true
  | _ => false

/-- Whether the run was cancelled. -/
def isCancelled : Failure → Bool
  | cancelled _ => true
  | _ => false

@[simp] theorem parts_many (failures : List Failure) : (many failures).parts = failures := rfl

@[simp] theorem parts_combine (first second : Failure) :
    (first.combine second).parts = first.parts ++ second.parts := rfl

theorem combine_assoc (a b c : Failure) :
    (a.combine b).combine c = a.combine (b.combine c) := by
  simp [combine]

end Failure

end Transduction
