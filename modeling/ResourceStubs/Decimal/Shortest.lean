import ResourceStubs.Decimal.Binary64

/-!
# The shortest decimal text of a binary value

A value is shown by the fewest decimal digits that read back as the same value; among several
decimals of that length the nearest one is taken. The digits are found by a search over grids of
decimals, from coarse to fine: on each grid only the two neighbours of the value can be the answer
(`Decimal.candidate`), and the finest grid has seventeen digits, which always suffice.

Exponents in the middle range are written positionally, always with a fraction, the others in
scientific notation. Where the middle range ends is part of a `Decimal.NumberStyle`, because
messages have their own conventions about it.
-/

namespace ResourceStubs.Decimal

/-- A whole number times ten to some power, as a quotient. -/
def ratioOfDecimal (c : Nat) (e : Int) : Nat × Nat :=
  if 0 ≤ e then (c * Nat.pow 10 e.toNat, 1) else (c, Nat.pow 10 (-e).toNat)

/-- Whether `c · 10 ^ e` rounds to the given value. -/
def readsBack (a : Magnitude) (c : Nat) (e : Int) : Bool :=
  let r := ratioOfDecimal c e
  Magnitude.ofRatio r.1 r.2 == some a

/-- The number of decimal digits. -/
def digitCount (n : Nat) : Nat :=
  (Nat.toDigits 10 n).length

/-- The power of ten at or below a positive quotient. -/
def floorLog10 (num den : Nat) : Int :=
  let guess : Int := (digitCount num : Int) - (digitCount den : Int)
  let atLeast :=
    if 0 ≤ guess then den * Nat.pow 10 guess.toNat ≤ num
    else den ≤ num * Nat.pow 10 (-guess).toNat
  if atLeast then guess else guess - 1

/-- The decimal with last digit of weight `10 ^ e` that is nearest to the value among the two around
it that read back, if one of them does. -/
def candidate (a : Magnitude) (e : Int) : Option Nat :=
  let v := a.ratio
  let num := if 0 ≤ e then v.1 else v.1 * Nat.pow 10 (-e).toNat
  let den := if 0 ≤ e then v.2 * Nat.pow 10 e.toNat else v.2
  let below := num / den
  let nearest := roundDiv num den
  let other := if nearest = below then below + 1 else below
  if readsBack a nearest e then some nearest
  else if readsBack a other e then some other
  else none

/-- Searches for the first grid, from coarse to fine, with a decimal that reads back. -/
def search (a : Magnitude) : Nat → Int → Nat × Int
  | 0, e => ((candidate a e).getD 0, e)
  | finer + 1, e =>
    match candidate a e with
    | some c => (c, e)
    | none => search a finer (e - 1)

/-- The shortest decimal `c · 10 ^ e` that reads back as a value other than zero. Seventeen digits
always suffice. -/
def shortest (a : Magnitude) : Nat × Int :=
  let v := a.ratio
  search a 16 (floorLog10 v.1 v.2)

/-- The decisions of a written form. -/
structure NumberStyle where
  /-- The least exponent that is written positionally. -/
  leastPositional : Int
  /-- The greatest exponent that is written positionally. -/
  greatestPositional : Int
  /-- The least number of exponent digits. -/
  exponentDigits : Nat

/-- Messages write exponents from minus five to fifteen positionally, and other exponents with a
sign and at least two digits. -/
def messageStyle : NumberStyle :=
  ⟨-5, 15, 2⟩

/-- Digits without the zeros at their end. -/
def trimZeros (digits : List Char) : List Char :=
  (digits.reverse.dropWhile (· == '0')).reverse

/-- The written form of a decimal with the given significant digits, the first of which has weight
`10 ^ exponent`. A positional form always has a fraction. -/
def layout (style : NumberStyle) (digits : List Char) (exponent : Int) : List Char :=
  if style.leastPositional ≤ exponent ∧ exponent ≤ style.greatestPositional then
    if exponent < 0 then
      ['0', '.'] ++ List.replicate ((-exponent).toNat - 1) '0' ++ digits
    else
      let whole := exponent.toNat + 1
      let fraction := digits.drop whole
      digits.take whole ++ List.replicate (whole - digits.length) '0' ++ '.' ::
        (if fraction.isEmpty then ['0'] else fraction)
  else
    let shown := Nat.toDigits 10 exponent.natAbs
    let padded := List.replicate (style.exponentDigits - shown.length) '0' ++ shown
    let point := if digits.length ≤ 1 then digits else digits.take 1 ++ '.' :: digits.drop 1
    point ++ ['e', if exponent < 0 then '-' else '+'] ++ padded

/-- The text of a value in messages. -/
def Binary64.text (x : Binary64) : String :=
  let sign := if x.negative then ['-'] else []
  if x.magnitude.isZero then String.ofList (sign ++ ['0', '.', '0'])
  else
    let (c, e) := shortest x.magnitude
    let all := Nat.toDigits 10 c
    String.ofList (sign ++ layout messageStyle (trimZeros all) (e + (all.length : Int) - 1))

end ResourceStubs.Decimal
