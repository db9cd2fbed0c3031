/-
Module: CompositeModels.Penalty
Purpose: The penalty parameters and multiplier estimates of an augmented Lagrangian, with the terms
  that depend on nothing else and are computed once.
Main exports: Penalty, Penalty.make
-/
import CompositeModels.Error

namespace CompositeModels

/-- Penalty parameters and multipliers. -/
structure Penalty (α : Type) where
  /-- The penalty parameters. -/
  mu : Tensor α
  /-- The multiplier estimates. -/
  y : Tensor α
  /-- The entrywise products of parameters and multipliers, by which constraint values are shifted. -/
  shift : Tensor α
  /-- Half the sum of the products of parameters and squared multipliers. -/
  offset : α

namespace Penalty

variable {α : Type} [Scalar α]

/-- Build penalty data. There is one multiplier for each entry along the first axis of `mu`, and the
product of the two is taken along the last axis, so an array with several axes may be refused for its
shape or accepted. A model then takes vectors of its own length only. -/
def make (mu y : Tensor α) : Except (Error α) (Penalty α) := do
  let rows ← match mu.shape.head? with
    | some rows => pure rows
    | none => throw .missingAxis
  checkVectors rows [y.shape]
  if !Vec.allPositive mu.entries then
    throw .nonpositivePenalty
  let shift ← match mu.mulVector? y.entries with
    | some shift => pure shift
    | none => throw (.incompatibleShapes mu.shape y.shape)
  let weighted ← match shift.mulVector? y.entries with
    | some weighted => pure weighted
    | none => throw (.incompatibleShapes shift.shape y.shape)
  return {
    mu := mu
    y := y
    shift := shift
    offset := Scalar.half * Vec.total weighted.entries }

end Penalty

end CompositeModels
