import ResourceStubs.Json.Reading

/-!
# JSON numbers

A number without fraction and exponent that fits in 64 bits is a whole number; every other one is a
binary number of 53 bits. Negative zero counts among the latter, because whole numbers have no
negative zero.

The digits are gathered into a significand of 64 bits (`Json.gather`). Digits of the whole part that
no longer fit only raise the exponent; digits of the fraction that no longer fit are left out. So
the parts of a number are taken off the text one by one, with the significand and the exponent so
far handed on from part to part, and only at the end they are put together by `Json.ofParts`.
-/

namespace ResourceStubs.Json

/-- What a number stands for. -/
inductive Number where
  /-- A whole number of 64 bits, with or without sign. -/
  | integer (value : Int)
  /-- Any other number. -/
  | float (value : Decimal.Binary64)
  deriving DecidableEq, Inhabited, Repr

/-- How a message names a number. -/
def Number.found : Number → Found
  | integer value => .integer value
  | float value => .float value

/-- The value of a decimal digit. -/
def digitValue (c : Char) : Nat :=
  c.toNat - '0'.toNat

/-- The largest significand. -/
def significandLimit : Nat := Nat.pow 2 64 - 1

/-- Digits that were gathered. -/
structure Gathered where
  /-- Their value. -/
  significand : Nat
  /-- How many they are. -/
  count : Nat
  /-- The text after them. -/
  rest : List Char
  deriving DecidableEq, Inhabited, Repr

/-- Adds digits to a significand as long as it stays in its limit. -/
def gather (significand count : Nat) : List Char → Gathered
  | [] => ⟨significand, count, []⟩
  | c :: rest =>
    if isDigit c ∧ significand * 10 + digitValue c ≤ significandLimit then
      gather (significand * 10 + digitValue c) (count + 1) rest
    else ⟨significand, count, c :: rest⟩

/-- The number `significand · 10 ^ exponent`, or the error that it is too large. -/
def ofParts (negative : Bool) (significand : Nat) (exponent : Int) : Except Error Number :=
  match Decimal.scale significand exponent with
  | some magnitude => .ok (.float ⟨negative, magnitude⟩)
  | none => .error .numberOutOfRange

/-- A sign and the text after it; no sign is a plus sign. -/
def sign : List Char → Bool × List Char
  | '+' :: rest => (false, rest)
  | '-' :: rest => (true, rest)
  | rest => (false, rest)

/-- The value of a run of digits. -/
def digitsValue (digits : List Char) : Nat :=
  digits.foldl (fun n c => n * 10 + digitValue c) 0

/-- The exponent of a number, from behind its mark. -/
def exponentPart (negative : Bool) (significand : Nat) (exponent : Int) (s : List Char) :
    Except Error (Number × List Char) :=
  let (down, s) := sign s
  match s with
  | [] => .error .endInValue
  | c :: _ =>
    if isDigit c then
      let size : Int := digitsValue (s.takeWhile isDigit)
      (ofParts negative significand (if down then exponent - size else exponent + size)).map
        (·, s.dropWhile isDigit)
    else .error .invalidNumber

/-- The end of a number: an exponent or nothing. -/
def exponentOrEnd (negative : Bool) (significand : Nat) (exponent : Int) (s : List Char) :
    Except Error (Number × List Char) :=
  match s with
  | 'e' :: rest => exponentPart negative significand exponent rest
  | 'E' :: rest => exponentPart negative significand exponent rest
  | _ => (ofParts negative significand exponent).map (·, s)

/-- The fraction of a number, from behind the point. -/
def fractionPart (negative : Bool) (significand : Nat) (exponent : Int) (s : List Char) :
    Except Error (Number × List Char) :=
  match s with
  | [] => .error .endInValue
  | c :: _ =>
    if isDigit c then
      let fraction := gather significand 0 s
      exponentOrEnd negative fraction.significand (exponent - fraction.count)
        (fraction.rest.dropWhile isDigit)
    else .error .invalidNumber

/-- The number that digits alone stand for. -/
def wholeNumber (negative : Bool) (significand : Nat) : Number :=
  if negative then
    if significand = 0 ∨ Nat.pow 2 63 < significand then
      .float ⟨true, (Decimal.scale significand 0).getD .zero⟩
    else .integer (-significand)
  else .integer significand

/-- A number from behind its sign. -/
def unsignedNumber (negative : Bool) (s : List Char) : Except Error (Number × List Char) :=
  match s with
  | [] => .error .endInValue
  | c :: more =>
    if c = '0' ∧ more.head?.any isDigit then .error .invalidNumber
    else if isDigit c then
      let whole := gather 0 0 s
      let dropped : Nat := (whole.rest.takeWhile isDigit).length
      let rest := whole.rest.dropWhile isDigit
      match rest with
      | '.' :: tail => fractionPart negative whole.significand dropped tail
      | _ =>
        if dropped = 0 ∧ !(rest.head?.any fun c => c == 'e' || c == 'E') then
          .ok (wholeNumber negative whole.significand, rest)
        else exponentOrEnd negative whole.significand dropped rest
    else .error .invalidNumber

/-- The number that comes next. -/
def number : Read Number := fun s =>
  match s with
  | '-' :: rest => unsignedNumber true rest
  | _ => unsignedNumber false s

end ResourceStubs.Json
