/-
Module: CompositeModels.Box
Purpose: Boxes, the products of closed intervals that may be open-ended on either side, and clamping
  onto them.
Main exports: Interval, Interval.clamp, Box, Box.clamp
-/
import CompositeModels.Scalar

namespace CompositeModels

/-- A closed interval. A missing bound leaves its side open-ended. The bounds are not ordered by the
type: with the lower above the upper, clamping ends at the upper bound. -/
structure Interval (α : Type) where
  lower : Option α
  upper : Option α
deriving Repr, Inhabited

namespace Interval

variable {α : Type} [Scalar α]

/-- Raise a value to the lower bound, then lower it to the upper bound. -/
def clamp (interval : Interval α) (v : α) : α :=
  capped (raised v)
where
  raised (v : α) : α := interval.lower.elim v (Scalar.largerOf v)
  capped (v : α) : α := interval.upper.elim v (Scalar.smallerOf v)

end Interval

/-- A product of intervals, one for each coordinate. -/
abbrev Box (α : Type) := List (Interval α)

namespace Box

variable {α : Type}

/-- The box with the given lower and upper bounds. -/
def ofBounds (lower upper : List (Option α)) : Box α := List.zipWith Interval.mk lower upper

/-- Clamp each coordinate onto its interval. -/
def clamp [Scalar α] (box : Box α) (v : List α) : List α := List.zipWith Interval.clamp box v

end Box

end CompositeModels
