/-!
# What plain scalars stand for

A plain scalar is null, a truth value, a whole number, another number, or else a text, and the first
of these that fits is taken (`Yaml.PlainValue.of`). Whole numbers may be written in base ten,
sixteen, eight or two; digits with a leading zero are a text.

A whole number may have any size where one is expected, and what fits is decided there. Where
anything may stand, only whole numbers of up to 128 bits are taken as such; larger ones count among
the other numbers if they are written in base ten.
-/

namespace ResourceStubs.Yaml

/-- The words for null; an empty scalar is null where nothing else is expected of it. -/
def isNull (s : String) : Bool :=
  s == "~" || s == "null" || s == "Null" || s == "NULL"

/-- The words for truth values. -/
def boolOf (s : String) : Option Bool :=
  if s = "true" ∨ s = "True" ∨ s = "TRUE" then some true
  else if s = "false" ∨ s = "False" ∨ s = "FALSE" then some false
  else none

/-! ## Whole numbers -/

/-- The value of a digit in a base. -/
def digitOf (base : Nat) (c : Char) : Option Nat :=
  let value :=
    if '0' ≤ c ∧ c ≤ '9' then some (c.toNat - '0'.toNat)
    else if 'a' ≤ c ∧ c ≤ 'f' then some (c.toNat - 'a'.toNat + 10)
    else if 'A' ≤ c ∧ c ≤ 'F' then some (c.toNat - 'A'.toNat + 10)
    else none
  value.filter (· < base)

/-- The value of one or more digits in a base. -/
def digitsOf (base : Nat) (digits : List Char) : Option Nat :=
  if digits.isEmpty then none else digits.foldlM (fun n c => (digitOf base c).map (n * base + ·)) 0

/-- A number without sign, in any base. -/
def natOf : List Char → Option Nat
  | '0' :: 'x' :: digits => digitsOf 16 digits
  | '0' :: 'o' :: digits => digitsOf 8 digits
  | '0' :: 'b' :: digits => digitsOf 2 digits
  | digits => digitsOf 10 digits

/-- A sign and the text behind it. -/
def signOf : List Char → Option Char × List Char
  | '+' :: rest => (some '+', rest)
  | '-' :: rest => (some '-', rest)
  | rest => (none, rest)

/-- Whether a text is made of digits with a zero in front that does not belong there. -/
def hasLeadingZero (s : List Char) : Bool :=
  match (signOf s).2 with
  | '0' :: d :: rest => (d :: rest).all fun c => '0' ≤ c && c ≤ '9'
  | _ => false

/-- A whole number. -/
def intOf (s : String) : Option Int :=
  if hasLeadingZero s.toList then none
  else
    let (sign, rest) := signOf s.toList
    (natOf rest).map fun n => if sign = some '-' then -(n : Int) else (n : Int)

/-! ## Other numbers -/

/-- The parts of a number in base ten: its digits without the point, and the power of ten they are
multiplied with. -/
def decimalOf (s : List Char) : Option (Nat × Int) :=
  let isDigit (c : Char) : Bool := '0' ≤ c && c ≤ '9'
  let whole := s.takeWhile isDigit
  let s := s.dropWhile isDigit
  let (fraction, s) := match s with
    | '.' :: rest => (rest.takeWhile isDigit, rest.dropWhile isDigit)
    | _ => ([], s)
  match digitsOf 10 (whole ++ fraction) with
  | none => none
  | some n =>
    match s with
    | [] => some (n, -(fraction.length : Int))
    | mark :: rest =>
      if mark = 'e' ∨ mark = 'E' then
        let (sign, digits) := signOf rest
        (digitsOf 10 digits).map fun e =>
          (n, (if sign = some '-' then -(e : Int) else (e : Int)) - (fraction.length : Int))
      else none

/-- Whether `n · 10 ^ e` rounds to a binary number of 53 bits and not to infinity. The number of
digits settles all but a few cases, so no large power is computed. -/
def isFinite (n : Nat) (e : Int) : Bool :=
  let size := ((Nat.toDigits 10 n).length : Int) + e
  if n = 0 ∨ size ≤ 308 then true
  else if 310 < size then false
  else
    let limit := Nat.pow 2 1024 - Nat.pow 2 970
    if 0 ≤ e then decide (n * Nat.pow 10 e.toNat < limit)
    else decide (n < limit * Nat.pow 10 (-e).toNat)

/-- Whether a text is a number that is not whole, or one of the words for infinity and for no
number. -/
def isFloat (s : String) : Bool :=
  let (sign, rest) := signOf s.toList
  if rest = ".inf".toList ∨ rest = ".Inf".toList ∨ rest = ".INF".toList then true
  else if sign = none ∧
      (rest = ".nan".toList ∨ rest = ".NaN".toList ∨ rest = ".NAN".toList) then true
  else
    match decimalOf rest with
    | some (n, e) => isFinite n e
    | none => false

/-! ## All together -/

/-- What a plain scalar stands for. -/
inductive PlainValue where
  | null
  | bool (value : Bool)
  | int (value : Int)
  | float
  | text
  deriving DecidableEq, Inhabited, Repr

/-- Whole numbers are read as such up to 128 bits; larger ones count as other numbers, if they are
written in base ten. -/
def intOf128 (s : String) : Option Int :=
  (intOf s).filter fun n => -Int.pow 2 127 ≤ n ∧ n < Int.pow 2 128

/-- What a plain scalar stands for. -/
def PlainValue.of (s : String) : PlainValue :=
  if s.isEmpty ∨ isNull s then .null
  else
    match boolOf s with
    | some b => .bool b
    | none =>
      match intOf128 s with
      | some n => .int n
      | none => if !hasLeadingZero s.toList && isFloat s then .float else .text

end ResourceStubs.Yaml
