/-!
# JSON values

The values of the JSON data format, with what a strict reader has to keep apart: whole numbers and
other numbers, the order and repetition of members, and strings that are no text because they
hold half of a surrogate pair.

## Main definitions

* `Json`: a value.
* `Json.render`: the compact text of a value.
* `Json.get?` and the readings `Json.nat?`, `Json.int?`, `Json.text?`, `Json.items?`.
-/

namespace Transduction

/-- A JSON value. A string or member name is `none` if it is no text. -/
inductive Json where
  | null
  | bool (value : Bool)
  /-- A number written without fraction and exponent, and not as minus zero. -/
  | int (value : Int)
  /-- Any other number, as it is written. -/
  | real (digits : String)
  | string (text : Option String)
  | array (items : List Json)
  | object (members : List (Option String × Json))

namespace Json

instance : Inhabited Json := ⟨null⟩

/-- A string that is text. -/
def text (s : String) : Json := string (some s)

/-- A natural number. -/
def nat (n : Nat) : Json := int n

/-- An object whose member names are text. -/
def record (members : List (String × Json)) : Json :=
  object (members.map fun m => (some m.1, m.2))

/-- The first member of an object with a given name. -/
def get? (json : Json) (name : String) : Option Json :=
  match json with
  | object members => (members.find? (·.1 == some name)).map (·.2)
  | _ => none

def bool? : Json → Option Bool
  | bool value => some value
  | _ => none

def int? : Json → Option Int
  | int value => some value
  | _ => none

def nat? : Json → Option Nat
  | int (.ofNat n) => some n
  | _ => none

def text? : Json → Option String
  | string s => s
  | _ => none

def items? : Json → Option (List Json)
  | array items => some items
  | _ => none

/-! ### Writing -/

/-- Four hexadecimal digits. -/
def hex4 (n : Nat) : String :=
  let digits := Nat.toDigits 16 n
  String.ofList (List.replicate (4 - digits.length) '0' ++ digits)

/-- The written form of one character of a string. -/
def escape (c : Char) : String :=
  if c = '"' then "\\\""
  else if c = '\\' then "\\\\"
  else if c.toNat < 0x20 then "\\u" ++ hex4 c.toNat
  else c.toString

/-- The written form of a string. -/
def quote (s : String) : String := "\"" ++ String.join (s.toList.map escape) ++ "\""

mutual

/-- The compact text of a value. -/
def render : Json → String
  | null => "null"
  | bool true => "true"
  | bool false => "false"
  | int value => toString value
  | real digits => digits
  | string s => quote (s.getD "")
  | array items => "[" ++ ",".intercalate (renderItems items) ++ "]"
  | object members => "\x7b" ++ ",".intercalate (renderMembers members) ++ "\x7d"

/-- The texts of the items of an array. -/
def renderItems : List Json → List String
  | [] => []
  | item :: rest => item.render :: renderItems rest

/-- The texts of the members of an object. -/
def renderMembers : List (Option String × Json) → List String
  | [] => []
  | (name, value) :: rest => (quote (name.getD "") ++ ":" ++ value.render) :: renderMembers rest

end

end Json

end Transduction
