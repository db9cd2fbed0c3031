/-
Module: CompositeModels.Leaf.Expression
Purpose: The model of an objective and a constraint map that are given by expressions, as the problem

    optimize    f(x)
    subject to  c(x) in R^ncon

  with derivatives computed from the expressions. There is no proximable term and no constraint set.
Main exports: ConstraintMap, ExpressionLeaf, ExpressionLeaf.build, ExpressionLeaf.oracle
-/
import CompositeModels.Expression.Derivative
import CompositeModels.Oracle

namespace CompositeModels

/-- A list of expressions, and the shape in which their values are arranged, if it was declared. -/
structure ConstraintMap (α : Type) where
  expressions : List (Expression α)
  declaredShape : Option Shape := none

namespace ConstraintMap

variable {α : Type}

/-- The map without values. -/
def empty : ConstraintMap α where
  expressions := []

/-- The shape of the values at a point of the given shape. An entry of a point with several axes is an
array itself, and the values are stacked. -/
def shapeAt (constraintMap : ConstraintMap α) (point : Shape) : Shape :=
  constraintMap.declaredShape.getD <|
    let entry := if constraintMap.expressions.all (·.isConstant) then [] else point.tail
    constraintMap.expressions.length :: entry

end ConstraintMap

/-- A model given by expressions. -/
structure ExpressionLeaf (α : Type) where
  header : Header α
  objective : Expression α
  constraints : List (Expression α)

namespace ExpressionLeaf

variable {α : Type} [Elementary α]

/-- Build a model. The number of variables is the extent of the initial guess along its first axis,
the number of constraints is that of the values of the constraint map. -/
def build (objective : Expression α) (x0 : Tensor α) (constraints : Option (ConstraintMap α))
    (y0 : Option (Tensor α)) (minimize : Bool) (name : String) : Eval α (ExpressionLeaf α) := do
  if constraints.isNone && y0.isSome then
    throw .multipliersWithoutConstraints
  let constraints := constraints.getD .empty
  let ncon ← match constraints.shapeAt x0.shape with
    | [ncon] => pure ncon
    | shape => throw (.constraintsNotVector shape)
  if let some y0 := y0 then
    Eval.checkVectors ncon [y0.shape]
  let nvar ← match x0.shape.head? with
    | some nvar => pure nvar
    | none => throw .missingAxis
  let header ← Eval.ofExcept (Header.make nvar ncon (some x0) y0 minimize name)
  Eval.record (.expressionsBuilt header.name header.nvar header.ncon)
  return {
    header := header
    objective := objective
    constraints := constraints.expressions }

variable (leaf : ExpressionLeaf α)

/-- The values of the constraint map. -/
def values (x : List α) : List α := leaf.constraints.map (·.value x)

/-- The Jacobian of the constraint map times a vector, by forward derivatives. -/
def pushforward (x v : List α) : List α := leaf.constraints.map (·.directionalDerivative x v)

/-- The transposed Jacobian of the constraint map times a vector, by backward derivatives. -/
def pullback (x w : List α) : List α :=
  (leaf.constraints.zip w).foldl (fun gradient (e, weight) => e.accumulate x weight gradient)
    (Vec.zeros x.length)

/-- The hooks of the model. -/
def hooks : Hooks α where
  objective x := pure (leaf.objective.value x)
  gradient x _ := pure (leaf.objective.gradient x)
  objectiveGradient := Hooks.separateObjectiveGradient
    (fun x => pure (leaf.objective.value x))
    (fun x _ => pure (leaf.objective.gradient x))
  constraints x _ := pure (leaf.values x)
  objectiveConstraints := Hooks.separateObjectiveConstraints leaf.header
    (fun x => pure (leaf.objective.value x))
    (fun x _ => pure (leaf.values x))
  jacobianProduct x v _ := pure (leaf.pushforward x v)
  adjointProduct x v _ := pure (leaf.pullback x v)
  project := Hooks.withoutSet .expression
  distance := Hooks.distanceToProjection (Hooks.withoutSet .expression)
  proximal := Hooks.withoutTerm .expression
  proximalWithValue := Hooks.withoutTerm .expression

/-- The oracle of the model. -/
def oracle : Oracle α where
  header := leaf.header
  kind := .expression
  hooks := leaf.hooks

end ExpressionLeaf

end CompositeModels
