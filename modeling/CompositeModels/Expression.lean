/-
Module: CompositeModels.Expression
Purpose: Expressions in the entries of a point, with their values.
Main exports: BinaryOperator, UnaryOperator, Expression, Expression.fold, Expression.value,
  Expression.isConstant
-/
import CompositeModels.Scalar

namespace CompositeModels

/-- Operators of two operands. -/
inductive BinaryOperator where
  | add
  | sub
  | mul
  | div
  | max
  | min
deriving Repr, Inhabited, DecidableEq

/-- Operators of one operand. -/
inductive UnaryOperator where
  | sin
  | cos
  | exp
  | log
  | sqrt
  | tanh
  | abs
  | neg
deriving Repr, Inhabited, DecidableEq

/-- Expressions in the entries of a point. -/
inductive Expression (α : Type) where
  | constant (value : α)
  | entry (index : Nat)
  | binary (operator : BinaryOperator) (left right : Expression α)
  | power (operand : Expression α) (exponent : Int)
  | unary (operator : UnaryOperator) (operand : Expression α)
deriving Repr, Inhabited

namespace BinaryOperator

variable {α : Type} [Scalar α]

/-- The value of an operator at two operands. -/
def apply : BinaryOperator → α → α → α
  | .add, a, b => a + b
  | .sub, a, b => a - b
  | .mul, a, b => a * b
  | .div, a, b => a / b
  | .max, a, b => Scalar.maximum a b
  | .min, a, b => Scalar.minimum a b

end BinaryOperator

namespace UnaryOperator

variable {α : Type} [Elementary α]

/-- The value of an operator at an operand. -/
def apply : UnaryOperator → α → α
  | .sin, a => Elementary.sin a
  | .cos, a => Elementary.cos a
  | .exp, a => Elementary.exp a
  | .log, a => Elementary.log a
  | .sqrt, a => Scalar.sqrt a
  | .tanh, a => Elementary.tanh a
  | .abs, a => Scalar.abs a
  | .neg, a => -a

end UnaryOperator

namespace Expression

variable {α : Type}

/-- Several operands are combined from the left. One operand stands for itself. -/
def fold (operator : BinaryOperator) (first : Expression α) (rest : List (Expression α)) :
    Expression α :=
  rest.foldl (.binary operator) first

/-- No entry of the point occurs in the expression. -/
def isConstant : Expression α → Bool
  | .constant _ => true
  | .entry _ => false
  | .binary _ left right => left.isConstant && right.isConstant
  | .power operand _ => operand.isConstant
  | .unary _ operand => operand.isConstant

/-- The value of an expression at a point. -/
def value [Elementary α] (x : List α) : Expression α → α
  | .constant a => a
  | .entry index => x.getD index 0
  | .binary operator left right => operator.apply (left.value x) (right.value x)
  | .power operand exponent => Scalar.intPower (operand.value x) exponent
  | .unary operator operand => operator.apply (operand.value x)

end Expression

end CompositeModels
