import Transduction.Json.Basic

/-!
# Reading JSON

Reading goes in two passes over a list, each with one step per element: characters are put
together into lexemes, and lexemes into a value. Blank, tab, line feed and carriage return
separate lexemes; nothing else does. A number needs a digit before and after its point and no
leading zeros. A string must not hold control characters, and four hexadecimal digits follow each
`\u` in it.

## Main definitions

* `Json.Lexeme`, `Json.lexemes?`: the lexemes of a text.
* `Json.Partial`, `Json.ofLexemes?`: the value that a list of lexemes writes.
* `Json.parse?`: both passes.
-/

namespace Transduction.Json

/-! ### Numerals -/

/-- The number that decimal digits write. -/
def decimal (digits : List Char) : Nat :=
  digits.foldl (fun n c => 10 * n + (c.toNat - '0'.toNat)) 0

/-- What follows an optional fraction. -/
def afterFraction? : List Char → Option (List Char)
  | '.' :: rest => if (rest.takeWhile Char.isDigit).isEmpty then none
    else some (rest.dropWhile Char.isDigit)
  | rest => some rest

/-- What follows a sign, if there is one. -/
def afterSign : List Char → List Char
  | '+' :: rest => rest
  | '-' :: rest => rest
  | rest => rest

/-- Whether nothing or an exponent is left. -/
def isExponent : List Char → Bool
  | [] => true
  | c :: rest =>
    let digits := afterSign rest
    (c = 'e' || c = 'E') && !digits.isEmpty && digits.all Char.isDigit

/-- The number that a numeral without sign writes: a whole one, or none if it has a fraction or an
exponent. -/
def unsigned? (numeral : List Char) : Option (Option Nat) :=
  let digits := numeral.takeWhile Char.isDigit
  let rest := numeral.dropWhile Char.isDigit
  if digits.isEmpty || (digits.length > 1 && digits.head? = some '0') then none
  else if rest.isEmpty then some (some (decimal digits))
  else match afterFraction? rest with
    | some exponent => if isExponent exponent then some none else none
    | none => none

/-- The number that a numeral writes. -/
def number? (numeral : List Char) : Option Json :=
  match numeral with
  | '-' :: digits =>
    match unsigned? digits with
    | some (some 0) => some (real "-0")
    | some (some n) => some (int (-n))
    | some none => some (real (String.ofList numeral))
    | none => none
  | digits =>
    match unsigned? digits with
    | some (some n) => some (int n)
    | some none => some (real (String.ofList numeral))
    | none => none

/-! ### Strings -/

/-- The part of a string read so far, last character first. A first half of a surrogate pair waits
for its second half; a half that is left alone makes the string no text. -/
structure Passage where
  chars : List Char
  half : Option Nat
  isText : Bool

namespace Passage

def empty : Passage := ⟨[], none, true⟩

/-- Appends a character. -/
def push (passage : Passage) (c : Char) : Passage :=
  ⟨c :: passage.chars, none, passage.isText && passage.half.isNone⟩

/-- Appends a code unit. -/
def pushUnit (passage : Passage) (unit : Nat) : Passage :=
  if 0xD800 ≤ unit ∧ unit < 0xDC00 then
    ⟨passage.chars, some unit, passage.isText && passage.half.isNone⟩
  else if 0xDC00 ≤ unit ∧ unit < 0xE000 then
    match passage.half with
    | some high =>
      ⟨Char.ofNat (0x10000 + (high - 0xD800) * 0x400 + (unit - 0xDC00)) :: passage.chars, none,
        passage.isText⟩
    | none => ⟨passage.chars, none, false⟩
  else passage.push (Char.ofNat unit)

/-- The whole string. -/
def close (passage : Passage) : Option String :=
  if passage.isText && passage.half.isNone then some (String.ofList passage.chars.reverse) else none

end Passage

/-- The character that a one-letter escape stands for. -/
def shortEscape? : Char → Option Char
  | '"' => some '"'
  | '\\' => some '\\'
  | '/' => some '/'
  | 'b' => some (Char.ofNat 8)
  | 'f' => some (Char.ofNat 12)
  | 'n' => some '\n'
  | 'r' => some '\r'
  | 't' => some '\t'
  | _ => none

/-- The value of a hexadecimal digit. -/
def hexDigit? (c : Char) : Option Nat :=
  if '0' ≤ c ∧ c ≤ '9' then some (c.toNat - '0'.toNat)
  else if 'a' ≤ c ∧ c ≤ 'f' then some (c.toNat - 'a'.toNat + 10)
  else if 'A' ≤ c ∧ c ≤ 'F' then some (c.toNat - 'A'.toNat + 10)
  else none

/-! ### Lexemes -/

/-- A lexeme: a punctuation mark, or a value without parts. -/
inductive Lexeme where
  | openArray | closeArray | openObject | closeObject | comma | colon
  | scalar (value : Json)

/-- What the lexer is inside of. Characters are kept last first. -/
inductive Lexer where
  | blank
  | word (letters : List Char)
  | numeral (chars : List Char)
  | string (passage : Passage)
  | escape (passage : Passage)
  | unit (passage : Passage) (digits : Nat) (value : Nat)

/-- The value that a word stands for. -/
def word? (letters : List Char) : Option Json :=
  match String.ofList letters with
  | "true" => some (bool true)
  | "false" => some (bool false)
  | "null" => some null
  | _ => none

namespace Lexer

/-- The lexer and the lexemes found so far, last first. -/
abbrev State := Lexer × List Lexeme

/-- Reads a character outside of words, numerals and strings. -/
def start (found : List Lexeme) (c : Char) : Option State :=
  match c with
  | ' ' | '\t' | '\n' | '\r' => some (blank, found)
  | '[' => some (blank, .openArray :: found)
  | ']' => some (blank, .closeArray :: found)
  | '\x7b' => some (blank, .openObject :: found)
  | '\x7d' => some (blank, .closeObject :: found)
  | ',' => some (blank, .comma :: found)
  | ':' => some (blank, .colon :: found)
  | '"' => some (string .empty, found)
  | c =>
    if c.isDigit || c = '-' then some (numeral [c], found)
    else if c.isAlpha then some (word [c], found)
    else none

/-- Ends a word or a numeral. -/
def finish : State → Option (List Lexeme)
  | (blank, found) => some found
  | (word letters, found) => (word? letters.reverse).map (.scalar · :: found)
  | (numeral chars, found) => (number? chars.reverse).map (.scalar · :: found)
  | _ => none

/-- Whether a character can stand in a numeral. -/
def isNumeral (c : Char) : Bool :=
  c.isDigit || c = '+' || c = '-' || c = '.' || c = 'e' || c = 'E'

/-- Reads one character. -/
def step (state : State) (c : Char) : Option State :=
  match state with
  | (blank, found) => start found c
  | (word letters, found) =>
    if c.isAlpha then some (word (c :: letters), found)
    else (finish state).bind (start · c)
  | (numeral chars, found) =>
    if isNumeral c then some (numeral (c :: chars), found)
    else (finish state).bind (start · c)
  | (string passage, found) =>
    if c = '"' then some (blank, .scalar (.string passage.close) :: found)
    else if c = '\\' then some (escape passage, found)
    else if c.toNat < 0x20 then none
    else some (string (passage.push c), found)
  | (escape passage, found) =>
    if c = 'u' then some (unit passage 0 0, found)
    else (shortEscape? c).map fun d => (string (passage.push d), found)
  | (unit passage digits value, found) =>
    (hexDigit? c).map fun d =>
      if digits = 3 then (string (passage.pushUnit (16 * value + d)), found)
      else (unit passage (digits + 1) (16 * value + d), found)

end Lexer

/-- The lexemes of a text, if it has no other characters. -/
def lexemes? (text : List Char) : Option (List Lexeme) :=
  ((text.foldlM Lexer.step (Lexer.blank, [])).bind Lexer.finish).map List.reverse

/-! ### Values -/

/-- A container that a value is being read into, with what it holds so far, last first. -/
inductive Frame where
  | array (items : List Json)
  | object (members : List (Option String × Json)) (name : Option String)

/-- A value read in part: what comes next, and the containers around it, innermost first. -/
inductive Partial where
  /-- A value. -/
  | value (outer : List Frame)
  /-- The first item of an array, or its end. -/
  | firstItem (outer : List Frame)
  /-- The first member of an object, or its end. -/
  | firstMember (outer : List Frame)
  /-- The name of a further member. -/
  | name (members : List (Option String × Json)) (outer : List Frame)
  /-- The colon after the name of a member. -/
  | colon (members : List (Option String × Json)) (name : Option String) (outer : List Frame)
  /-- What may follow a whole value. -/
  | after (value : Json) (outer : List Frame)

namespace Partial

/-- Begins a value. -/
def begin (outer : List Frame) : Lexeme → Option Partial
  | .scalar v => some (after v outer)
  | .openArray => some (firstItem outer)
  | .openObject => some (firstMember outer)
  | _ => none

/-- Reads one lexeme. -/
def step : Partial → Lexeme → Option Partial
  | value outer, lexeme => begin outer lexeme
  | firstItem outer, .closeArray => some (after (.array []) outer)
  | firstItem outer, lexeme => begin (.array [] :: outer) lexeme
  | firstMember outer, .closeObject => some (after (.object []) outer)
  | firstMember outer, .scalar (.string key) => some (colon [] key outer)
  | name members outer, .scalar (.string key) => some (colon members key outer)
  | colon members key outer, .colon => some (value (.object members key :: outer))
  | after item (.array items :: outer), .comma => some (value (.array (item :: items) :: outer))
  | after item (.array items :: outer), .closeArray =>
    some (after (.array (item :: items).reverse) outer)
  | after member (.object members key :: outer), .comma =>
    some (name ((key, member) :: members) outer)
  | after member (.object members key :: outer), .closeObject =>
    some (after (.object ((key, member) :: members).reverse) outer)
  | _, _ => none

/-- The value, if it is whole. -/
def whole? : Partial → Option Json
  | after v [] => some v
  | _ => none

end Partial

/-- The value that a list of lexemes writes. -/
def ofLexemes? (lexemes : List Lexeme) : Option Json :=
  (lexemes.foldlM Partial.step (.value [])).bind Partial.whole?

/-- The value that a text writes, blanks around it aside. -/
def parse? (text : String) : Option Json := (lexemes? text.toList).bind ofLexemes?

end Transduction.Json
