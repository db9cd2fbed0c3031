/-
Module: CompositeModels.Expression.Derivative
Purpose: Derivatives of expressions, forward along a direction and backward from a weight. Both use
  the same chains for the operators, with fixed conventions where an operator has no derivative.
Main exports: Expression.tangent, Expression.directionalDerivative, Expression.accumulate,
  Expression.gradient
-/
import CompositeModels.Expression
import CompositeModels.Expression.Chain
import CompositeModels.Vec

namespace CompositeModels

namespace BinaryOperator

variable {α : Type} [Scalar α]

/-- How much of a selected value belongs to `operand`: all if it alone was selected, half on a tie. -/
def selectedShare (operand other selected : α) : α :=
  if operand == selected then if other == selected then Scalar.half else 1 else 0

/-- The derivative in the left operand. -/
def leftChain : BinaryOperator → α → α → Chain α
  | .add, _, _ => []
  | .sub, _, _ => []
  | .mul, _, b => .single b
  | .div, _, b => .single (1 / b)
  | .max, a, b => .single (selectedShare a b (Scalar.maximum a b))
  | .min, a, b => .single (selectedShare a b (Scalar.minimum a b))

/-- The derivative in the right operand. That of a quotient is taken factor by factor, since the whole
factor may overflow where a small tangent does not. -/
def rightChain : BinaryOperator → α → α → Chain α
  | .add, _, _ => []
  | .sub, _, _ => .single (-1)
  | .mul, a, _ => .single a
  | .div, a, b => [.times (-1), .times a, .times (Scalar.intPower b (-2))]
  | .max, a, b => .single (selectedShare b a (Scalar.maximum a b))
  | .min, a, b => .single (selectedShare b a (Scalar.minimum a b))

end BinaryOperator

namespace UnaryOperator

variable {α : Type} [Elementary α]

/-- The derivative of an operator. The absolute value has slope one at zero. The slope of the hyperbolic
tangent is one minus its square, as the product of one plus and one minus its value. -/
def chain : UnaryOperator → α → Chain α
  | .sin, a => .single (Elementary.cos a)
  | .cos, a => .single (-Elementary.sin a)
  | .exp, a => .single (Elementary.exp a)
  | .log, a => .single (1 / a)
  | .sqrt, a => .single (Scalar.half / Scalar.sqrt a)
  | .tanh, a => [.plusTimes (Elementary.tanh a), .times (1 - Elementary.tanh a)]
  | .abs, a => .single (if 0 ≤ a then 1 else -1)
  | .neg, _ => .single (-1)

end UnaryOperator

namespace Expression

variable {α : Type} [Elementary α]

/-- The derivative of an integer power. -/
def powerChain (a : α) (exponent : Int) : Chain α :=
  .single (Elementary.ofInteger exponent * Scalar.intPower a (exponent - 1))

/-- The sum of the parts that are there. -/
def joinTangents : Option α → Option α → Option α
  | some s, some t => some (s + t)
  | some s, none => some s
  | none, t => t

/-- The derivative at `x` along `v`, or nothing if no entry of the point occurs in the expression. A zero
power has the tangent zero, whatever the tangent of its operand is. -/
def tangent (x v : List α) : Expression α → Option α
  | .constant _ => none
  | .entry index => some (v.getD index 0)
  | .binary operator left right =>
      let a := left.value x
      let b := right.value x
      joinTangents ((left.tangent x v).map (operator.leftChain a b).forward)
        ((right.tangent x v).map (operator.rightChain a b).forward)
  | .power operand exponent =>
      (operand.tangent x v).map fun t =>
        if exponent = 0 then 0 else (powerChain (operand.value x) exponent).forward t
  | .unary operator operand =>
      (operand.tangent x v).map (operator.chain (operand.value x)).forward

/-- The derivative at `x` along `v`. -/
def directionalDerivative (e : Expression α) (x v : List α) : α := (e.tangent x v).getD 0

/-- Add to `gradient` the given weight times the gradient of the expression at `x`. No weight passes
through a zero power. -/
def accumulate (x : List α) : Expression α → α → List α → List α
  | .constant _, _, gradient => gradient
  | .entry index, weight, gradient => gradient.modify index (· + weight)
  | .binary operator left right, weight, gradient =>
      let a := left.value x
      let b := right.value x
      right.accumulate x ((operator.rightChain a b).backward weight)
        (left.accumulate x ((operator.leftChain a b).backward weight) gradient)
  | .power operand exponent, weight, gradient =>
      if exponent = 0 then gradient
      else operand.accumulate x ((powerChain (operand.value x) exponent).backward weight) gradient
  | .unary operator operand, weight, gradient =>
      operand.accumulate x ((operator.chain (operand.value x)).backward weight) gradient

/-- The gradient at `x`. -/
def gradient (e : Expression α) (x : List α) : List α := e.accumulate x 1 (Vec.zeros x.length)

end Expression

end CompositeModels
