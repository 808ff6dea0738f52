import Transduction.Blueprint.Value

/-!
# Typed alternates

Alternates of several types in one: a value together with its type, which can be asked for the
value at a type and gives it only at its own.

## Main definitions

* `Alternate.Kind`: the types.
* `Alternate`: a value of one of the types.
* `Alternate.typeName`, `Alternate.describe`: the name of the type, and an alternate as text.
* `Alternate.downcast`: asking for the value at a type.

## Main results

* `Alternate.downcast_eq_ok_iff`: which types give the value.
-/

namespace Transduction.Blueprint

/-- The types of alternates. -/
inductive Alternate.Kind where
  | int
  | byte
  | bool
  | text
  | unit
  | ints
  | optionalInt
  | value
  deriving DecidableEq, Repr

/-- The name of a type. -/
def Alternate.Kind.typeName : Alternate.Kind → String
  | int => "i64"
  | byte => "u8"
  | bool => "bool"
  | text => "alloc::string::String"
  | unit => "()"
  | ints => "alloc::vec::Vec<i64>"
  | optionalInt => "core::option::Option<i64>"
  | value => TypeNamed.typeName Value.unit

/-- An alternate of one of several types. -/
inductive Alternate where
  | int (value : Int64)
  | byte (value : UInt8)
  | bool (value : Bool)
  | text (value : String)
  | unit
  | ints (values : List Int64)
  | optionalInt (value : Option Int64)
  | value (value : Value)

namespace Alternate

/-- The type of an alternate. -/
def kind : Alternate → Kind
  | int _ => .int
  | byte _ => .byte
  | bool _ => .bool
  | text _ => .text
  | unit => .unit
  | ints _ => .ints
  | optionalInt _ => .optionalInt
  | value _ => .value

/-- The name of the type of an alternate. -/
def typeName (alternate : Alternate) : String := alternate.kind.typeName

instance : TypeNamed Alternate := ⟨typeName⟩

/-- An alternate as text; its value is not shown. -/
def describe (alternate : Alternate) : String :=
  "AltValue \x7b type_name: \"" ++ alternate.typeName ++ "\", .. \x7d"

/-- The value of an alternate at a type, or the alternate itself if it has another type. -/
def downcast (alternate : Alternate) (kind : Kind) : Except Alternate Alternate :=
  if alternate.kind = kind then .ok alternate else .error alternate

/-- Asks for the value at several types in turn, until one fits. -/
def downcasts (alternate : Alternate) : List Kind → List (Except Alternate Alternate)
  | [] => []
  | kind :: rest =>
    match alternate.downcast kind with
    | .ok found => [.ok found]
    | .error back => .error back :: back.downcasts rest

theorem downcast_eq_ok_iff {alternate found : Alternate} {kind : Kind} :
    alternate.downcast kind = .ok found ↔ alternate.kind = kind ∧ alternate = found := by
  unfold downcast
  split <;> simp_all

end Alternate

end Transduction.Blueprint
