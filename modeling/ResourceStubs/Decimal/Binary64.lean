/-!
# Binary floating point with 53 bits

Documents may hold numbers that are no whole numbers of 64 bits. They are never accepted, but the
message that refuses one shows its value, rounded to a binary number of 53 bits. All arithmetic here
is exact on natural numbers, followed by one rounding to nearest, ties to even.

A `Decimal.Magnitude` stands for `mantissa · 2 ^ exponent`. There is a single place where a value is
rounded, `Decimal.Magnitude.ofRatio`, and products and quotients are formed exactly before they go
through it. None stands for a value beyond the largest one.

How often a number is rounded matters for its last digit. `Decimal.scale` therefore takes the steps
that documents are read with and does not round the exact value: the significand is rounded, the
power of ten is rounded, and then their product or quotient is. Small numbers with exponents beyond
the powers that can be represented are divided more than once.
-/

namespace ResourceStubs.Decimal

/-- A non-negative value `mantissa · 2 ^ exponent`. The mantissa has at most 53 bits, and it has
fewer than 53 bits only for the least exponent. -/
structure Magnitude where
  /-- The leading bits. -/
  mantissa : Nat
  /-- The weight of the last bit, as a power of two. -/
  exponent : Int
  deriving DecidableEq, Inhabited, Repr

/-- The number of bits of a mantissa. -/
def precision : Nat := 53

/-- The weight of the last bit of the smallest values. -/
def leastExponent : Int := -1074

/-- The weight of the last bit of the largest values. -/
def greatestExponent : Int := 971

/-- A whole number times a power of two with any exponent, as a quotient. -/
def ratioOfScaled (m : Nat) (e : Int) : Nat × Nat :=
  if 0 ≤ e then (m * Nat.pow 2 e.toNat, 1) else (m, Nat.pow 2 (-e).toNat)

/-- The quotient to the nearest whole number, a tie to the even one. -/
def roundDiv (num den : Nat) : Nat :=
  let q := num / den
  let r := num % den
  if 2 * r > den || (2 * r == den && q % 2 == 1) then q + 1 else q

/-- The power of two at or below a positive quotient. -/
def floorLog2 (num den : Nat) : Int :=
  let guess : Int := (num.log2 : Int) - (den.log2 : Int)
  let atLeast :=
    if 0 ≤ guess then den * Nat.pow 2 guess.toNat ≤ num
    else den ≤ num * Nat.pow 2 (-guess).toNat
  if atLeast then guess else guess - 1

namespace Magnitude

/-- The value zero. -/
def zero : Magnitude :=
  ⟨0, leastExponent⟩

/-- The value nearest to a quotient; none when it is beyond the largest value. -/
def ofRatio (num den : Nat) : Option Magnitude :=
  if num = 0 then some zero
  else
    let e := max (floorLog2 num den - (precision - 1 : Nat)) leastExponent
    let m :=
      if 0 ≤ e then roundDiv num (den * Nat.pow 2 e.toNat)
      else roundDiv (num * Nat.pow 2 (-e).toNat) den
    let rounded : Magnitude :=
      if m = Nat.pow 2 precision then ⟨Nat.pow 2 (precision - 1), e + 1⟩ else ⟨m, e⟩
    if rounded.exponent > greatestExponent then none else some rounded

/-- The value as a quotient. -/
def ratio (a : Magnitude) : Nat × Nat :=
  ratioOfScaled a.mantissa a.exponent

/-- Whether the value is zero. -/
def isZero (a : Magnitude) : Bool :=
  a.mantissa == 0

/-- The rounded product. -/
def mul (a b : Magnitude) : Option Magnitude :=
  let r := ratioOfScaled (a.mantissa * b.mantissa) (a.exponent + b.exponent)
  ofRatio r.1 r.2

/-- The rounded quotient. -/
def div (a b : Magnitude) : Option Magnitude :=
  let x := a.ratio
  let y := b.ratio
  ofRatio (x.1 * y.2) (x.2 * y.1)

/-- The value nearest to a power of ten. -/
def powerOfTen (n : Nat) : Option Magnitude :=
  ofRatio (Nat.pow 10 n) 1

end Magnitude

/-- The greatest power of ten that is no larger than the largest value. -/
def greatestPowerOfTen : Nat := 308

/-- Multiplies by ten to the given power. Powers beyond the representable ones are taken off in
pieces, of which the first argument bounds the number. None when the result is beyond the largest
value. -/
def scaleBy : Nat → Magnitude → Int → Option Magnitude
  | 0, a, _ => some a
  | pieces + 1, a, e =>
    if e.natAbs ≤ greatestPowerOfTen then do
      let p ← Magnitude.powerOfTen e.natAbs
      if 0 ≤ e then a.mul p else a.div p
    else if a.isZero then some a
    else if 0 ≤ e then none
    else do
      let p ← Magnitude.powerOfTen greatestPowerOfTen
      let smaller ← a.div p
      scaleBy pieces smaller (e + greatestPowerOfTen)

/-- The value of `significand · 10 ^ exponent`: first the significand is rounded, then it is
multiplied or divided by the rounded power of ten. None when the result is beyond the largest
value. -/
def scale (significand : Nat) (exponent : Int) : Option Magnitude := do
  let a ← Magnitude.ofRatio significand 1
  scaleBy (exponent.natAbs / greatestPowerOfTen + 1) a exponent

/-- A finite value with a sign; zero has two of them. -/
structure Binary64 where
  /-- Whether the value is written with a minus sign. -/
  negative : Bool
  /-- The value without its sign. -/
  magnitude : Magnitude
  deriving DecidableEq, Inhabited, Repr

end ResourceStubs.Decimal
