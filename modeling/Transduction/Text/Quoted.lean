import Transduction.Text.Unprintable

/-!
# Quoted text

Text between double quotes in which every character is visible: quotes and backslashes are
escaped, the common control characters have short escapes, and any other character that does not
print on its own is written by its code point.

## Main definitions

* `Quoted.escape`: the written form of one character.
* `Quoted.encode`: the written form of a text.
-/

namespace Transduction.Quoted

/-- The code point of a character, in lower-case hexadecimal between braces. -/
def codePoint (c : Char) : String :=
  "\\u\x7b" ++ String.ofList (Nat.toDigits 16 c.toNat) ++ "\x7d"

/-- The written form of one character. -/
def escape (c : Char) : String :=
  if c = '"' then "\\\""
  else if c = '\\' then "\\\\"
  else if c = '\n' then "\\n"
  else if c = '\r' then "\\r"
  else if c = '\t' then "\\t"
  else if c.toNat = 0 then "\\0"
  else if ' ' ≤ c ∧ c ≤ '~' then c.toString
  else if Unprintable.holds c then codePoint c
  else c.toString

/-- The written form of a text, with its quotes. -/
def encode (text : String) : String :=
  "\"" ++ String.join (text.toList.map escape) ++ "\""

end Transduction.Quoted
