/-
Module: CompositeModels.Text.Number
Purpose: How numbers and shapes are written in messages.
Main exports: Number.plain, Number.scientific, Number.shape, Number.compactShape
-/
import CompositeModels.Text.Decimal

namespace CompositeModels.Number

/-- Write a number by its sign and the digits of its magnitude. -/
def write (zero : String) (magnitude : Nat → Int → String) (x : Float) : String :=
  match Binary64.ofFloat x with
  | .undefined => "nan"
  | .infinite negative => signed negative "inf"
  | .finite negative significand exponent =>
      signed negative (if significand = 0 then zero else magnitude significand exponent)
where
  signed (negative : Bool) (text : String) : String := if negative then "-" ++ text else text

/-- An exponent with its sign and at least two digits. -/
def exponentText (exponent : Int) : String :=
  let digits := toString exponent.natAbs
  (if exponent < 0 then "e-" else "e+") ++ "".pushn '0' (2 - digits.length) ++ digits

/-- The first digit, then a point and the others, if there are any. -/
def pointAfterFirst (digits : String) : String :=
  if digits.length ≤ 1 then digits
  else String.ofList (digits.toList.take 1) ++ "." ++ String.ofList (digits.toList.drop 1)

/-- Digits in positional notation, with at least one digit on each side of the point. -/
def positional (digits : String) (exponent : Int) : String :=
  if exponent < 0 then
    "0." ++ "".pushn '0' (exponent.natAbs - 1) ++ digits
  else
    let whole := exponent.toNat + 1
    if digits.length ≤ whole then
      digits ++ "".pushn '0' (whole - digits.length) ++ ".0"
    else
      String.ofList (digits.toList.take whole) ++ "." ++ String.ofList (digits.toList.drop whole)

/-- The fewest digits that read back, in positional notation from `0.0001` up to below `10^16` and
with an exponent elsewhere. -/
def plain (x : Float) : String :=
  write "0.0" magnitude x
where
  magnitude (significand : Nat) (exponent : Int) : String :=
    let decimal := Decimal.shortest significand exponent
    let digits := toString decimal.digits
    if -4 ≤ decimal.exponent ∧ decimal.exponent < 16 then positional digits decimal.exponent
    else pointAfterFirst digits ++ exponentText decimal.exponent

/-- One digit before the point, `places` after it, and an exponent. -/
def scientific (places : Nat) (x : Float) : String :=
  write (pointAfterFirst ("".pushn '0' (places + 1)) ++ exponentText 0) magnitude x
where
  magnitude (significand : Nat) (exponent : Int) : String :=
    let decimal := Decimal.rounded (places + 1) significand exponent
    pointAfterFirst (toString decimal.digits) ++ exponentText decimal.exponent

/-- Extents between parentheses. A single extent is followed by a comma. -/
def extents (separator : String) : List Int → String
  | [n] => s!"({n},)"
  | shape => "(" ++ separator.intercalate (shape.map toString) ++ ")"

/-- A shape, with blanks after the commas. -/
def shape (shape : List Nat) : String := extents ", " (shape.map Int.ofNat)

/-- A shape without blanks. -/
def compactShape (shape : List Nat) : String := extents "," (shape.map Int.ofNat)

end CompositeModels.Number
