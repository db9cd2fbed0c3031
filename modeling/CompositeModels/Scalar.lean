/-
Module: CompositeModels.Scalar
Purpose: The scalar operations that evaluations use. Every evaluation of the library is written once
  over this interface, so the same definition runs on binary64 numbers and has an exact meaning over
  any other scalars, such as the reals.
Main exports: Scalar, Scalar.isUndefined, Scalar.largerOf, Scalar.smallerOf, Scalar.maximum,
  Scalar.minimum, Scalar.sign, Scalar.intPower, Elementary
-/

namespace CompositeModels

/-- Scalars with arithmetic, order, square root and absolute value. Nothing is assumed of the
operations: binary64 arithmetic rounds, overflows to infinity and has values that differ from
themselves. -/
class Scalar (α : Type) extends
    Zero α, One α, Add α, Sub α, Mul α, Div α, Neg α, LT α, LE α, BEq α where
  /-- Square root. -/
  sqrt : α → α
  /-- Absolute value. -/
  abs : α → α
  /-- The least positive value held with full precision. A smaller norm is not divided by. -/
  smallestNormal : α
  /-- The strict order is decided. -/
  decideLt : DecidableLT α
  /-- The order is decided. -/
  decideLe : DecidableLE α

attribute [reducible, instance] Scalar.decideLt Scalar.decideLe

namespace Scalar

variable {α : Type} [Scalar α]

/-- One half. -/
def half : α := 1 / (1 + 1)

/-- A value that differs from itself carries no number. -/
def isUndefined (a : α) : Bool := !(a == a)

/-- The larger of two values. An undefined value wins over any other. -/
def largerOf (a b : α) : α :=
  if isUndefined a then a else if b < a then a else b

/-- The smaller of two values. An undefined value wins over any other. -/
def smallerOf (a b : α) : α :=
  if isUndefined a then a else if a < b then a else b

/-- The larger of two values, with a negative zero below a positive one. Equal zeros of different signs
are told apart by their inverses. -/
def maximum (a b : α) : α :=
  if a == b then (if 1 / b < 1 / a then a else b) else largerOf a b

/-- The smaller of two values, with a negative zero below a positive one. -/
def minimum (a b : α) : α :=
  if a == b then (if 1 / a < 1 / b then a else b) else smallerOf a b

/-- One, minus one or zero by the sign. An undefined value has no sign and is returned. -/
def sign (a : α) : α :=
  if 0 < a then 1 else if a < 0 then -1 else if isUndefined a then a else 0

/-- Multiply `product` by a natural power of `base`, by repeated squaring. The binary digits of the
exponent are used from the least on. -/
def timesPower (product base : α) (n : Nat) : α :=
  if n = 0 then product
  else timesPower (if n % 2 = 1 then product * base else product) (base * base) (n / 2)
termination_by n

/-- A natural power. -/
def natPower (a : α) (n : Nat) : α := timesPower 1 a n

/-- An integer power. A negative exponent inverts the positive power. -/
def intPower (a : α) (n : Int) : α :=
  if n < 0 then 1 / natPower a n.natAbs else natPower a n.natAbs

end Scalar

/-- Scalars with the elementary functions that expressions use. -/
class Elementary (α : Type) extends Scalar α where
  /-- Sine. -/
  sin : α → α
  /-- Cosine. -/
  cos : α → α
  /-- Natural exponential. -/
  exp : α → α
  /-- Natural logarithm. -/
  log : α → α
  /-- Hyperbolic tangent. -/
  tanh : α → α
  /-- The scalar of an integer. -/
  ofInteger : Int → α

instance : Scalar Float where
  zero := 0.0
  one := 1.0
  add := Float.add
  sub := Float.sub
  mul := Float.mul
  div := Float.div
  neg := Float.neg
  lt := fun a b => a < b
  le := fun a b => a ≤ b
  beq := Float.beq
  sqrt := Float.sqrt
  abs := Float.abs
  smallestNormal := 2.2250738585072014e-308
  decideLt := fun a b => inferInstanceAs (Decidable (a < b))
  decideLe := fun a b => inferInstanceAs (Decidable (a ≤ b))

instance : Elementary Float where
  sin := Float.sin
  cos := Float.cos
  exp := Float.exp
  log := Float.log
  tanh := Float.tanh
  ofInteger := fun n => Float.ofInt n

end CompositeModels
