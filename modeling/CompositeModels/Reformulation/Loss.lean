/-
Module: CompositeModels.Reformulation.Loss
Purpose: The losses that measure an infeasibility residual, and the directions along which they grow.
Main exports: Loss, Loss.ofName?, Huber.value, Huber.direction, Loss.value, Loss.direction
-/
import CompositeModels.Error

namespace CompositeModels

/-- The shapes of a loss. -/
inductive Loss where
  /-- The sum of absolute values. -/
  | abs
  /-- The Euclidean norm. -/
  | euclid
  /-- Half the squared Euclidean norm. -/
  | euclidSquared
  /-- Half the squared norm up to a threshold, and linear in the norm beyond it. -/
  | huber
deriving Repr, Inhabited, DecidableEq

/-- The threshold and the scale of a Huber loss. -/
structure Huber (α : Type) where
  threshold : α
  scale : α
deriving Repr, Inhabited

namespace Huber

variable {α : Type} [Scalar α] (huber : Huber α)

/-- The Huber loss of a residual. A comparison with an undefined norm or threshold fails, so the
linear part is taken. -/
def value (r : List α) : α :=
  let norm := Vec.norm r
  if norm ≤ huber.threshold then
    Scalar.half * huber.scale * (norm * norm)
  else
    huber.threshold * huber.scale * (norm - Scalar.half * huber.threshold)

/-- The gradient of the Huber loss. The linear part divides by the norm. -/
def direction (r : List α) : Except (Error α) (List α) :=
  let norm := Vec.norm r
  if norm ≤ huber.threshold then
    .ok (Vec.scale huber.scale r)
  else if norm == 0 then
    .error .divisionByZero
  else
    .ok (Vec.scale (huber.threshold * huber.scale / norm) r)

end Huber

namespace Loss

/-- The name of a loss. -/
def name : Loss → String
  | .abs => "abs"
  | .euclid => "euclid"
  | .euclidSquared => "euclid_sq"
  | .huber => "huber"

/-- The loss of a name. -/
def ofName? (name : String) : Option Loss :=
  [Loss.abs, .euclid, .euclidSquared, .huber].find? (·.name == name)

variable {α : Type} [Scalar α]

/-- The loss of a residual. -/
def value (loss : Loss) (huber : Huber α) (r : List α) : α :=
  match loss with
  | .abs => Vec.total (Vec.abs r)
  | .euclid => Vec.norm r
  | .euclidSquared => Scalar.half * Vec.dot r r
  | .huber => huber.value r

/-- The direction in which the loss grows at a residual, or nothing where the Euclidean norm is too
small to be divided by. -/
def direction (loss : Loss) (huber : Huber α) (r : List α) :
    Except (Error α) (Option (List α)) :=
  match loss with
  | .abs => .ok (some (r.map Scalar.sign))
  | .euclid =>
      let norm := Vec.norm r
      if norm ≤ Scalar.smallestNormal then .ok none else .ok (some (Vec.divide r norm))
  | .euclidSquared => .ok (some r)
  | .huber => (huber.direction r).map some

end Loss

end CompositeModels
