import Transduction.Json.Basic

/-!
# Records and choices in JSON

How typed values are read from JSON. A record is an object whose known members occur at most once
each, or an array of the values of its members in order; unknown members are passed over. A choice
without content is the name of the alternative, or an object with that name as its one member and
`null` as its value.

## Main definitions

* `Json.members?`: the members of a record.
* `Json.choice?`: the alternative of a choice.
* `Json.word64?`: a whole number of 64 bits.
-/

namespace Transduction.Json

/-- The members of an object with one name. -/
def named (members : List (Option String × Json)) (name : String) : List Json :=
  (members.filter (·.1 == some name)).map (·.2)

/-- What a record holds for each of the given names, `none` for a missing member. Fails if a member
is repeated, if a name is no text, or if an array is longer than the record. -/
def members? (names : List String) : Json → Option (List (Option Json))
  | .object members =>
    if members.all (·.1.isSome) && names.all (fun name => (named members name).length ≤ 1) then
      some (names.map fun name => (named members name).head?)
    else none
  | .array items =>
    if items.length ≤ names.length then
      some ((List.range names.length).map fun i => items[i]?)
    else none
  | _ => none

/-- The alternative that a choice names. -/
def choice? {α : Type} (alternatives : List (String × α)) : Json → Option α
  | .string (some name) => alternatives.lookup name
  | .object [(some name, .null)] => alternatives.lookup name
  | _ => none

/-- The largest number of 64 bits. -/
def maxWord64 : Nat := 18446744073709551615

/-- A whole number from zero to the largest of 64 bits. -/
def word64? : Json → Option Nat
  | .int (.ofNat n) => if n ≤ maxWord64 then some n else none
  | _ => none

/-- A member that may be missing. -/
def optional? {α : Type} (read : Json → Option α) (fallback : α) : Option Json → Option α
  | none => some fallback
  | some json => read json

end Transduction.Json
