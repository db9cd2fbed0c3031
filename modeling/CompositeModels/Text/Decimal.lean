/-
Module: CompositeModels.Text.Decimal
Purpose: Decimal digits of binary64 numbers: rounded to a number of significant digits, or the fewest
  that read back as the same number. All arithmetic is exact, on natural numbers.
Main exports: Binary64, Binary64.ofFloat, Decimal, Decimal.rounded, Decimal.shortest
-/

namespace CompositeModels

/-- A binary64 number, taken apart. -/
inductive Binary64 where
  | undefined
  | infinite (negative : Bool)
  /-- The number `significand * 2^exponent`, or its negative. -/
  | finite (negative : Bool) (significand : Nat) (exponent : Int)
deriving Repr, Inhabited, DecidableEq

namespace Binary64

/-- Take a number apart. -/
def ofFloat (x : Float) : Binary64 :=
  let bits := x.toBits.toNat
  let negative := bits / Nat.pow 2 63 == 1
  let biased : Nat := bits / Nat.pow 2 52 % Nat.pow 2 11
  let fraction := bits % Nat.pow 2 52
  if biased = 2047 then
    if fraction = 0 then infinite negative else undefined
  else if biased = 0 then finite negative fraction (-1074)
  else finite negative (Nat.pow 2 52 + fraction) ((biased : Int) - 1075)

end Binary64

/-- A fraction of natural numbers. -/
structure Fraction where
  numerator : Nat
  denominator : Nat
deriving Repr, Inhabited

namespace Fraction

/-- The number `n * base^exponent`. -/
def ofPower (n base : Nat) (exponent : Int) : Fraction where
  numerator := n * base.pow exponent.toNat
  denominator := base.pow (-exponent).toNat

/-- A fraction times a power of ten. -/
def shift (q : Fraction) (exponent : Int) : Fraction where
  numerator := q.numerator * Nat.pow 10 exponent.toNat
  denominator := q.denominator * Nat.pow 10 (-exponent).toNat

/-- Compare by cross multiplication. -/
def le (q r : Fraction) : Bool := q.numerator * r.denominator ≤ r.numerator * q.denominator

/-- Compare by cross multiplication. -/
def lt (q r : Fraction) : Bool := q.numerator * r.denominator < r.numerator * q.denominator

/-- The nearest natural number. Of two that are equally near, the even one. -/
def round (q : Fraction) : Nat :=
  let whole := q.numerator / q.denominator
  let rest := q.numerator % q.denominator
  if 2 * rest < q.denominator then whole
  else if q.denominator < 2 * rest then whole + 1
  else whole + whole % 2

/-- The number of decimal digits of a natural number. -/
def digitCount (n : Nat) : Nat := (Nat.toDigits 10 n).length

/-- The exponent of the largest power of ten that is not above a positive fraction. -/
def decimalExponent (q : Fraction) : Int :=
  let guess : Int := digitCount q.numerator - digitCount q.denominator
  if (ofPower 1 10 guess).le q then guess else guess - 1

end Fraction

/-- Decimal digits with a point after the first: `12345` with exponent `2` is `123.45`. -/
structure Decimal where
  digits : Nat
  exponent : Int
deriving Repr, Inhabited, DecidableEq

namespace Decimal

/-- Take away zeros at the end of the digits. The last remaining digit stays. -/
def stripZeros (decimal : Decimal) : Decimal :=
  let text := Nat.toDigits 10 decimal.digits
  let zeros := (text.reverse.takeWhile (· == '0')).length
  { decimal with digits := decimal.digits / Nat.pow 10 (min zeros (text.length - 1)) }

/-- A positive number rounded to `count` significant digits. -/
def rounded (count significand : Nat) (exponent : Int) : Decimal :=
  let value := Fraction.ofPower significand 2 exponent
  let leading := value.decimalExponent
  let digits := (value.shift (count - 1 - leading)).round
  if digits = Nat.pow 10 count then ⟨Nat.pow 10 (count - 1), leading + 1⟩ else ⟨digits, leading⟩

/-- The numbers that read as `significand * 2^exponent` lie between these ends. They are four times as
fine as the number itself, since below a power of two the next number is half as far away. -/
def readingInterval (significand : Nat) (exponent : Int) : Fraction × Fraction :=
  let isPowerOfTwo := significand = Nat.pow 2 52 ∧ -1074 < exponent
  let below := if isPowerOfTwo then 1 else 2
  (Fraction.ofPower (4 * significand - below) 2 (exponent - 2),
    Fraction.ofPower (4 * significand + 2) 2 (exponent - 2))

/-- A number with `count` significant digits that reads as `significand * 2^exponent`, if there is one.
Only the two neighbours on the grid of such numbers can be the nearest. -/
def readingWith? (significand : Nat) (exponent : Int) (count : Nat) : Option Decimal :=
  let value := Fraction.ofPower significand 2 exponent
  let leading := value.decimalExponent
  let unit : Int := leading - count + 1
  let (low, high) := readingInterval significand exponent
  let reads (digits : Nat) : Bool :=
    let candidate := Fraction.ofPower digits 10 unit
    if significand % 2 = 0 then low.le candidate && candidate.le high
    else low.lt candidate && candidate.lt high
  let scaled := value.shift (-unit)
  let floor := scaled.numerator / scaled.denominator
  let nearest := scaled.round
  let other := if nearest = floor then floor + 1 else floor
  let chosen := if reads nearest then some nearest else if reads other then some other else none
  chosen.map fun digits => ⟨digits, unit + Fraction.digitCount digits - 1⟩

/-- The fewest digits that read as the positive number `significand * 2^exponent`, and the nearest of
those to the number. Seventeen digits are always enough. -/
def shortest (significand : Nat) (exponent : Int) : Decimal :=
  let found := (List.range 17).findSome? fun i => readingWith? significand exponent (i + 1)
  (found.getD (rounded 17 significand exponent)).stripZeros

end Decimal

end CompositeModels
