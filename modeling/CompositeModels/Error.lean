/-
Module: CompositeModels.Error
Purpose: The causes for which a construction or an evaluation is refused, and the check of vector
  lengths that most of them come from. The wording of a cause is in CompositeModels.Error.Message.
Main exports: Evaluation, ModelKind, Error, checkVectors
-/
import CompositeModels.Tensor

namespace CompositeModels

/-- The evaluations that a differentiable backend offers. -/
inductive Evaluation where
  | objective
  | gradient
  | constraints
  | jacobianProduct
  | adjointProduct
deriving Repr, Inhabited, DecidableEq

/-- The kinds of models: two leaves and five reformulations of a base model. -/
inductive ModelKind where
  | backend
  | expression
  | slack
  | proximalPoint
  | augmentedLagrangian
  | feasibility
  | tailored
deriving Repr, Inhabited, DecidableEq

/-- Why a construction or an evaluation is refused. -/
inductive Error (α : Type) where
  /-- The argument at a position of one length check is not a vector of the expected length. -/
  | lengthMismatch (position : Nat) (shape : Shape) (expected : Int)
  /-- The constraint map of an expression leaf does not give a vector. -/
  | constraintsNotVector (shape : Shape)
  /-- There is no variable, or a negative number of constraints. -/
  | invalidDimensions (nvar ncon : Int)
  /-- A proximal step is not above zero. -/
  | nonpositiveStep (step : α)
  /-- A penalty parameter is not above zero. -/
  | nonpositivePenalty
  /-- An augmented Lagrangian was asked of a model without constraints. -/
  | unconstrainedBase
  /-- No loss has this name. -/
  | unknownLoss (name : String)
  /-- The weight of the proximal term is below zero. -/
  | negativeProximalWeight
  /-- An entry of the proximal scaling is below zero. -/
  | negativeProximalScaling
  /-- The threshold or the scale of the Huber loss is not above zero. -/
  | nonpositiveHuberParameter
  /-- Multipliers were given for a model without a constraint map. -/
  | multipliersWithoutConstraints
  /-- A model of this kind has no constraint set. -/
  | noConstraintSet (kind : ModelKind)
  /-- A model of this kind has no proximable term. -/
  | noProximableTerm (kind : ModelKind)
  /-- No termination status has this name. -/
  | unknownStatus (name : String)
  /-- A header has no field of this name. -/
  | unknownField (name : String)
  /-- A single number was given where an array with at least one axis is needed. -/
  | missingAxis
  /-- Two arrays whose shapes do not match were multiplied. -/
  | incompatibleShapes (left right : Shape)
  /-- A number was divided by zero. -/
  | divisionByZero
  /-- A backend failed to evaluate at the given point. -/
  | evaluationFailed (evaluation : Evaluation)
deriving Repr, Inhabited

/-- Check that each array is a vector with the expected number of entries. The first that is not is
named by its position. -/
def checkVectors {α : Type} (expected : Int) (shapes : List Shape) : Except (Error α) Unit :=
  checkFrom 0 shapes
where
  checkFrom (position : Nat) : List Shape → Except (Error α) Unit
    | [] => .ok ()
    | shape :: rest =>
        if shape.IsVectorOf expected then checkFrom (position + 1) rest
        else .error (.lengthMismatch position shape expected)

end CompositeModels
