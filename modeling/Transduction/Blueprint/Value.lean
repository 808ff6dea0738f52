import Transduction.Branch
import Transduction.Verdict
import Transduction.Registry.Disposal

/-!
# Values of written pipelines

Pipelines that are written down as data work on one type of values. A value can be a branch, a
failure or a handle to a resource; the handle shows how often the resource has been released.

## Main definitions

* `Value`: the values.
* `Value.display`: a value as plain text; two values count as equal if their texts are.
* `Value.toBranch`, `Value.ofBranch`: values as branches.
* `Value.stamped`: a value with up-to-date release counts.

## Main results

* `Value.toBranch_ofBranch`: a branch survives being written as a value.
-/

namespace Transduction.Blueprint

/-- The values of written pipelines. -/
inductive Value where
  | unit
  | bool (value : Bool)
  | int (value : Int64)
  | text (value : String)
  | list (items : List Value)
  | left (value : Value)
  | right (value : Value)
  | fail (failure : Failure)
  /-- A resource, with the number of releases known when the value was last stamped. -/
  | resource (handle : Handle) (name : String) (releases : Nat)

namespace Value

mutual

/-- A value as plain text. -/
def display : Value → String
  | unit => "null"
  | bool true => "true"
  | bool false => "false"
  | int n => toString n.toInt
  | text s => s
  | list items => "[" ++ ",".intercalate (displays items) ++ "]"
  | left v => "L(" ++ v.display ++ ")"
  | right v => "R(" ++ v.display ++ ")"
  | fail failure => "F(" ++ failure.text ++ ")"
  | resource _ name _ => "res:" ++ name

/-- The plain texts of a list of values. -/
def displays : List Value → List String
  | [] => []
  | v :: rest => v.display :: displays rest

end

/-- Whether two values have the same text. -/
def same (a b : Value) : Bool := a.display == b.display

instance : BEq Value := ⟨same⟩

/-- A value as a branch; what is no branch counts as a right value. -/
def toBranch : Value → Branch Value Value
  | left v => .left v
  | right v => .right v
  | fail failure => .fail failure
  | v => .right v

/-- A branch as a value. -/
def ofBranch : Branch Value Value → Value
  | .left v => left v
  | .right v => right v
  | .fail failure => fail failure

@[simp] theorem toBranch_ofBranch (branch : Branch Value Value) :
    toBranch (ofBranch branch) = branch := by
  cases branch <;> rfl

/-- The items of a list; any other value is a single item. -/
def items : Value → List Value
  | list vs => vs
  | v => [v]

/-- A value as an item of a feed: a failure stands for itself. -/
def toItem : Value → Except Failure Value
  | fail failure => .error failure
  | v => .ok v

/-- The handle of a resource. -/
def handle? : Value → Option Handle
  | resource handle _ _ => some handle
  | _ => none

mutual

/-- A value with up-to-date release counts. -/
def stamped (releases : Handle → Nat) : Value → Value
  | resource handle name _ => resource handle name (releases handle)
  | list vs => list (stampedAll releases vs)
  | left v => left (stamped releases v)
  | right v => right (stamped releases v)
  | v => v

/-- Values with up-to-date release counts. -/
def stampedAll (releases : Handle → Nat) : List Value → List Value
  | [] => []
  | v :: rest => stamped releases v :: stampedAll releases rest

end

end Value

/-- The name under which the type of values appears in failures. -/
instance : TypeNamed Value := ⟨fun _ => "oracle_driver::val::Val"⟩

end Transduction.Blueprint
