/-
Module: CompositeModels.Reformulation.Feasibility
Purpose: The feasibility problem of a base,

    minimize    m(c(x) - proj_S(c(x))) + weight/2 sum(scaling * (x - center)^2)
                [+ g(x), if the indicator is kept]

  with a loss `m`. The proximal term is there only for a positive weight and a positive scaling. The
  residual is kept until it is needed at another point, so the base must evaluate `c` the same way
  each time.
Main exports: Feasibility.Options, Feasibility, Feasibility.build, Feasibility.residual,
  Feasibility.infeasibility, Feasibility.infeasibilityGradient, Feasibility.violation,
  Feasibility.proximalDistance, Feasibility.unscaledDistance, Feasibility.hooks, Feasibility.oracle
-/
import CompositeModels.Reformulation.Loss
import CompositeModels.Reformulation.Unconstrained

namespace CompositeModels

/-- The data of a feasibility problem. -/
structure Feasibility (α : Type) extends Wrapper α where
  loss : Loss
  huber : Huber α
  /-- The weight of the proximal term. -/
  weight : α
  /-- Whether the proximable term of the base is kept. -/
  withIndicator : Bool
  /-- The center of the proximal term. -/
  center : List α
  /-- The scaling of the proximal term. -/
  scaling : List α

namespace Feasibility

variable {α : Type} [Scalar α]

/-- The proximal term is active for a positive weight and a positive scaling only. -/
def withProximalTerm (node : Feasibility α) : Bool :=
  decide (0 < node.weight) && Vec.allPositive node.scaling

/-- What a feasibility problem is asked to be. Whatever is left out takes a default. -/
structure Options (α : Type) where
  loss : Option String := none
  threshold : Option α := none
  scale : Option α := none
  weight : Option α := none
  withIndicator : Bool := false
  center : Option (Tensor α) := none
  scaling : Option (Tensor α) := none
  x0 : Option (Tensor α) := none

/-- Build the feasibility problem of a base. The center defaults to the initial guess of the base, the
initial guess to the center, the scaling to ones, the loss to half the squared norm, the threshold
and the scale of the Huber loss to one and the weight to zero. -/
def build (base : Header α) (options : Options α) (name : Option String) (ownsBase : Bool) :
    Eval α (Feasibility α) := do
  let center := options.center.getD (.vector base.x0)
  let scaling := options.scaling.getD (.vector (Vec.ones base.nvar))
  let x0 := options.x0.getD center
  let lossName := options.loss.getD Loss.euclidSquared.name
  let weight := options.weight.getD 0
  let huber : Huber α := ⟨options.threshold.getD 1, options.scale.getD 1⟩
  Eval.checkVectors base.nvar [x0.shape, center.shape, scaling.shape]
  let loss ← match Loss.ofName? lossName with
    | some loss => pure loss
    | none => throw (.unknownLoss lossName)
  if ¬ 0 ≤ weight then
    throw .negativeProximalWeight
  if !Vec.allNonnegative scaling.entries then
    throw .negativeProximalScaling
  if ¬ (0 < huber.threshold ∧ 0 < huber.scale) then
    throw .nonpositiveHuberParameter
  let header ← Eval.ofExcept <| base.replace {
    ncon := some 0
    x0 := some (some x0)
    y0 := some none
    minimize := some true
    name := some (Wrapper.derivedName base "-feas" name) }
  let serial ← Eval.freshSerial
  let node : Feasibility α := {
    serial := serial
    header := header
    ownsBase := ownsBase
    loss := loss
    huber := huber
    weight := weight
    withIndicator := options.withIndicator
    center := center.entries
    scaling := scaling.entries }
  Eval.record (.feasibilityBuilt base.name loss.name base.ncon node.withProximalTerm)
  return node

variable (node : Feasibility α)

/-- The buffers as earlier evaluations left them. -/
def cache (base : Oracle α) (store : Store α) : ResidualCache α :=
  (store.residuals.get? node.serial).getD {
    constraints := Vec.zeros base.header.ncon
    residual := Vec.zeros base.header.ncon
    point := none }

/-- Change the buffers. -/
def modifyCache (base : Oracle α) (change : ResidualCache α → ResidualCache α) : Eval α Unit :=
  modify fun store =>
    { store with residuals := store.residuals.set node.serial (change (node.cache base store)) }

/-- The residual `c(x) - proj_S(c(x))`. The one at hand is used if its point has the same entries,
otherwise it is computed, and it is kept only once both evaluations of the base have succeeded. -/
def residual (base : Oracle α) (x : List α) : Eval α (List α) := do
  let cache := node.cache base (← get)
  if cache.point.any (x == ·) then
    return cache.residual
  let values ← base.constraints (.vector x) (some (.vector cache.constraints))
  node.modifyCache base fun cache => { cache with constraints := values }
  let projected ← base.project (.vector values) (some (.vector cache.residual))
  let residual := Vec.sub values projected
  node.modifyCache base fun cache => { cache with residual := residual, point := some x }
  return residual

/-- The loss of the residual at `x`, without the proximal term. -/
def infeasibility (base : Oracle α) (x : Tensor α) : Eval α α := do
  Eval.checkVectors node.header.nvar [x.shape]
  let r ← node.residual base x.entries
  return node.loss.value node.huber r

/-- The gradient of the loss at `x`. Where the loss has no direction it is zero, and the base is not
asked for its Jacobian. -/
def infeasibilityGradient (base : Oracle α) (x : Tensor α) (out : Option (Tensor α)) :
    Eval α (List α) := do
  let out := Oracle.buffer node.header.nvar out
  Eval.checkVectors node.header.nvar [x.shape, out.shape]
  let r ← node.residual base x.entries
  match ← Eval.ofExcept (node.loss.direction node.huber r) with
  | none => return Vec.zeroed out.entries
  | some direction =>
      base.adjointProduct (.vector x.entries) (.vector direction) (some (.vector out.entries))

/-- The largest absolute value in the residual at `x`. -/
def violation (base : Oracle α) (x : Tensor α) : Eval α α := do
  Eval.checkVectors node.header.nvar [x.shape]
  let r ← node.residual base x.entries
  return Vec.maxAbs r

/-- Half the scaled squared distance from the center. -/
def proximalDistance (x : Tensor α) : Eval α α := do
  Eval.checkVectors node.header.nvar [x.shape]
  let d := Vec.sub x.entries node.center
  return Scalar.half * Vec.total (Vec.mul (Vec.mul node.scaling d) d)

/-- Half the squared distance from the center. -/
def unscaledDistance (x : Tensor α) : Eval α α := do
  Eval.checkVectors node.header.nvar [x.shape]
  let d := Vec.sub x.entries node.center
  return Scalar.half * Vec.dot d d

/-- The loss, and the proximal term if it is active. -/
def objective (base : Oracle α) (x : List α) : Eval α α := do
  let value ← node.infeasibility base (.vector x)
  if node.withProximalTerm then
    let distance ← node.proximalDistance (.vector x)
    return value + node.weight * distance
  else
    return value

/-- The gradient of the loss, and that of the proximal term if it is active. -/
def gradient (base : Oracle α) (x out : List α) : Eval α (List α) := do
  let slope ← node.infeasibilityGradient base (.vector x) (some (.vector out))
  if node.withProximalTerm then
    return Vec.add slope
      (Vec.mul (Vec.scale node.weight node.scaling) (Vec.sub x node.center))
  else
    return slope

/-- The proximal point of the base if its term is kept, the point itself if not. -/
def proximal (base : Oracle α) (x : List α) (step : α) (out : List α) : Eval α (List α) :=
  if node.withIndicator then base.proximal (.vector x) step (some (.vector out)) else pure x

/-- As `proximal`, with the value of the term, which is zero if the term is not kept. -/
def proximalWithValue (base : Oracle α) (x : List α) (step : α) (out : List α) :
    Eval α (α × List α) :=
  if node.withIndicator then base.proximalWithValue (.vector x) step (some (.vector out))
  else pure (0, x)

/-- The hooks of the feasibility problem. -/
def hooks (base : Oracle α) : Hooks α where
  objective := node.objective base
  gradient := node.gradient base
  objectiveGradient := Hooks.separateObjectiveGradient (node.objective base) (node.gradient base)
  constraints := Unconstrained.constraints
  objectiveConstraints := Hooks.separateObjectiveConstraints node.header (node.objective base)
    Unconstrained.constraints
  jacobianProduct := Unconstrained.jacobianProduct
  adjointProduct := Unconstrained.adjointProduct
  project := Hooks.withoutSet .feasibility
  distance := Hooks.distanceToProjection (Hooks.withoutSet .feasibility)
  proximal := node.proximal base
  proximalWithValue := node.proximalWithValue base

/-- The oracle of the feasibility problem. -/
def oracle (base : Oracle α) : Oracle α where
  header := node.header
  kind := .feasibility
  hooks := node.hooks base

end Feasibility

end CompositeModels
