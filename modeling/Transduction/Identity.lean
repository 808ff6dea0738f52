import Transduction.Uuid
import Transduction.Json.Reader
import Transduction.Json.Decode

/-!
# Run identities

Who a piece of work belongs to: the run, and the scope within the run. The outermost scope of a
run has the identifier of the run itself.

## Main definitions

* `Identity`: a run and a scope in it.
* `Identity.root`, `Identity.nested`: the outermost scope of a run, and a scope inside another.
* `Identity.nestedTwice`: two scopes with identifiers of their own.
* `Identity.toJson`, `Identity.ofJson?`: the JSON form, a record of the two identifiers.

## Main results

* `Identity.isRoot_root`: the outermost scope is a root.
* `Identity.isRoot_nested`: a nested scope is a root only if it is given the run's identifier.
-/

namespace Transduction

/-- A run and a scope in it. -/
structure Identity where
  run : Uuid
  scope : Uuid
  deriving DecidableEq, Repr

namespace Identity

/-- The outermost scope of a run. -/
def root (run : Uuid) : Identity := ⟨run, run⟩

/-- A scope of the same run with an identifier of its own. -/
def nested (identity : Identity) (scope : Uuid) : Identity := ⟨identity.run, scope⟩

/-- Two scopes with identifiers of their own, opened one after the other. -/
def nestedTwice (identity : Identity) : Identity × Identity :=
  let used := [identity.run, identity.scope]
  let first := Uuid.fresh used
  (identity.nested first, identity.nested (Uuid.fresh (first :: used)))

/-- Whether this is the outermost scope of its run. -/
def isRoot (identity : Identity) : Bool := identity.run == identity.scope

/-- The JSON form. -/
def toJson (identity : Identity) : Json :=
  .record [("run_id", .text identity.run.text), ("scope_id", .text identity.scope.text)]

/-- Reads an identifier. -/
def uuid? : Option Json → Option Uuid
  | some (.string (some s)) => Uuid.ofText? s
  | _ => none

/-- Reads the JSON form; both members are required. -/
def ofJson? (json : Json) : Option Identity :=
  match json.members? ["run_id", "scope_id"] with
  | some [run, scope] => do return ⟨← uuid? run, ← uuid? scope⟩
  | _ => none

/-- Reads an identity from JSON text. -/
def parse? (text : String) : Option Identity := (Json.parse? text).bind ofJson?

@[simp] theorem isRoot_root (run : Uuid) : (root run).isRoot = true := by
  simp [root, isRoot]

@[simp] theorem run_nested (identity : Identity) (scope : Uuid) :
    (identity.nested scope).run = identity.run := rfl

theorem isRoot_nested (identity : Identity) (scope : Uuid) :
    (identity.nested scope).isRoot = true ↔ identity.run = scope := by
  simp [nested, isRoot]

end Identity

end Transduction
