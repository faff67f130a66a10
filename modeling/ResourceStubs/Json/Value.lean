/-!
# JSON values and their compact text

A tree of JSON values and the one text it is written as: no white space, members in the order of the
tree, and only the characters escaped that JSON does not allow in strings.

Texts are built as lists of characters and become strings at the very end (`Json.Value.text`), which
keeps the recursion over trees structural and lets the readers run on the same lists. Nesting is
counted by `Json.Value.depth`: every list and every object counts, empty ones included.
-/

namespace ResourceStubs.Json

/-- A JSON value whose numbers are whole. -/
inductive Value where
  | null
  | bool (value : Bool)
  | int (value : Int)
  | string (value : String)
  | array (items : List Value)
  | object (members : List (String × Value))
  deriving Inhabited

/-- A hexadecimal digit. -/
def hexChar (n : Nat) : Char :=
  Char.ofNat (if n < 10 then '0'.toNat + n else 'a'.toNat + (n - 10))

/-- A character inside a JSON string. -/
def escapedChar (c : Char) : List Char :=
  match c with
  | '"' => ['\\', '"']
  | '\\' => ['\\', '\\']
  | '\x08' => ['\\', 'b']
  | '\x0c' => ['\\', 'f']
  | '\n' => ['\\', 'n']
  | '\r' => ['\\', 'r']
  | '\t' => ['\\', 't']
  | c =>
    if c.toNat < 0x20 then ['\\', 'u', '0', '0', hexChar (c.toNat / 16), hexChar (c.toNat % 16)]
    else [c]

/-- A text as a JSON string. -/
def stringChars (s : String) : List Char :=
  '"' :: s.toList.flatMap escapedChar ++ ['"']

/-- A whole number in decimal digits. -/
def intChars (n : Int) : List Char :=
  if n < 0 then '-' :: Nat.toDigits 10 n.natAbs else Nat.toDigits 10 n.natAbs

namespace Value

mutual

/-- The compact text of a value. -/
def chars : Value → List Char
  | .null => "null".toList
  | .bool true => "true".toList
  | .bool false => "false".toList
  | .int value => intChars value
  | .string value => stringChars value
  | .array items => '[' :: itemChars items ++ [']']
  | .object members => '{' :: memberChars members ++ ['}']

/-- The values of a list, separated by commas. -/
def itemChars : List Value → List Char
  | [] => []
  | [v] => chars v
  | v :: more => chars v ++ ',' :: itemChars more

/-- The members of an object, separated by commas. -/
def memberChars : List (String × Value) → List Char
  | [] => []
  | [(key, v)] => stringChars key ++ ':' :: chars v
  | (key, v) :: more => stringChars key ++ ':' :: chars v ++ ',' :: memberChars more

end

/-- The compact text of a value. -/
def text (v : Value) : String :=
  String.ofList v.chars

mutual

/-- How deeply lists and objects are nested. -/
def depth : Value → Nat
  | .array items => itemDepth items + 1
  | .object members => memberDepth members + 1
  | _ => 0

/-- The greatest depth among values. -/
def itemDepth : List Value → Nat
  | [] => 0
  | v :: more => max (depth v) (itemDepth more)

/-- The greatest depth among the values of members. -/
def memberDepth : List (String × Value) → Nat
  | [] => 0
  | (_, v) :: more => max (depth v) (memberDepth more)

end

end Value

end ResourceStubs.Json
