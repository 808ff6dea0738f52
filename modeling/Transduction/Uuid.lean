import Transduction.Json.Basic

/-!
# Universally unique identifiers

Identifiers of 128 bits. They are written as five groups of lower-case hexadecimal digits, and
read as the five groups, as 32 digits without groups, or as the groups in braces or behind
`urn:uuid:`. All letters are read in either case.

## Main definitions

* `Uuid`: an identifier.
* `Uuid.text`, `Uuid.ofText?`: the written form.
* `Uuid.fresh`: an identifier that is not in use.
-/

namespace Transduction

/-- An identifier of 128 bits. -/
structure Uuid where
  bits : BitVec 128
  deriving DecidableEq, Repr

namespace Uuid

/-- The identifier with a given number. -/
def ofNat (n : Nat) : Uuid := ⟨BitVec.ofNat 128 n⟩

/-- The 32 hexadecimal digits of an identifier. -/
def digits (id : Uuid) : List Char :=
  let significant := Nat.toDigits 16 id.bits.toNat
  List.replicate (32 - significant.length) '0' ++ significant

/-- Cuts a list into pieces of given lengths; what is left over is the last piece. -/
def cut {α : Type} : List Nat → List α → List (List α)
  | [], rest => [rest]
  | n :: lengths, rest => rest.take n :: cut lengths (rest.drop n)

/-- The written form: five groups of digits. -/
def text (id : Uuid) : String :=
  "-".intercalate ((cut [8, 4, 4, 4] id.digits).map String.ofList)

/-- The identifier that 32 hexadecimal digits write. -/
def ofDigits? (digits : List Char) : Option Uuid :=
  if digits.length = 32 then
    (digits.mapM fun c =>
      if '0' ≤ c ∧ c ≤ '9' then some (c.toNat - '0'.toNat)
      else if 'a' ≤ c ∧ c ≤ 'f' then some (c.toNat - 'a'.toNat + 10)
      else if 'A' ≤ c ∧ c ≤ 'F' then some (c.toNat - 'A'.toNat + 10)
      else none).map fun values => ofNat (values.foldl (fun n v => 16 * n + v) 0)
  else none

/-- The identifier that five groups of digits write. -/
def ofGroups? (chars : List Char) : Option Uuid :=
  match cut [8, 1, 4, 1, 4, 1, 4, 1] chars with
  | [a, ['-'], b, ['-'], c, ['-'], d, ['-'], e] => ofDigits? (a ++ b ++ c ++ d ++ e)
  | _ => none

/-- What is left of a text after a leading part, whose Latin letters may be of either case. -/
def stripLeading? (leading chars : List Char) : Option (List Char) :=
  if leading.isPrefixOf (chars.map Char.toLower) then some (chars.drop leading.length) else none

/-- Reads the written form of an identifier. -/
def ofText? (s : String) : Option Uuid :=
  let chars := s.toList
  if chars.length = 32 then ofDigits? chars
  else if chars.length = 36 then ofGroups? chars
  else if chars.length = 38 ∧ chars.getLast? = some '\x7d' then
    (stripLeading? ['\x7b'] chars.dropLast).bind ofGroups?
  else if chars.length = 45 then (stripLeading? "urn:uuid:".toList chars).bind ofGroups?
  else none

/-- An identifier that is not in use: the one with the least number. -/
def fresh (used : List Uuid) : Uuid :=
  (((List.range (used.length + 1)).map ofNat).find? (!used.contains ·)).getD (ofNat 0)

end Uuid

end Transduction
