/-
Module: CompositeModels.Reformulation.AugmentedLagrangian
Purpose: The augmented Lagrangian. For a base with constraints, penalty parameters `mu > 0` and
  multiplier estimates `y` it represents

    optimize    L(x) + g(x)

  where

    L(x) = f(x) + 0.5 * sum((w - z)^2 / mu) - 0.5 * sum(mu * y^2)
    w = c(x) + mu * y,   z = proj_S(w)

  Its gradient is that of `f` plus the transposed Jacobian times `(w - z) / mu`, which is also the
  first-order update of the multipliers.
Main exports: AugmentedLagrangian, AugmentedLagrangian.build, AugmentedLagrangian.update,
  AugmentedLagrangian.multiplierEstimate, AugmentedLagrangian.hooks, AugmentedLagrangian.oracle
-/
import CompositeModels.Reformulation.Unconstrained

namespace CompositeModels

/-- The data of an augmented Lagrangian. The penalty data in force are these until an update replaces
them in the store. -/
structure AugmentedLagrangian (α : Type) extends Wrapper α where
  initialPenalty : Penalty α

namespace AugmentedLagrangian

variable {α : Type} [Scalar α]

/-- Build the augmented Lagrangian of a base with constraints. -/
def build (base : Header α) (mu y : Tensor α) (name : Option String) (ownsBase : Bool) :
    Eval α (AugmentedLagrangian α) := do
  if base.isUnconstrained then
    throw .unconstrainedBase
  let penalty ← Eval.ofExcept (Penalty.make mu y)
  Eval.checkVectors base.ncon [penalty.mu.shape]
  let header ← Eval.ofExcept <| base.replace {
    ncon := some 0
    y0 := some none
    name := some (Wrapper.derivedName base "-al" name) }
  let serial ← Eval.freshSerial
  let first := penalty.mu.entries.headD 0
  Eval.record (.augmentedLagrangianBuilt base.name base.ncon
    (Vec.smallest first penalty.mu.entries) (Vec.largest first penalty.mu.entries))
  return {
    serial := serial
    header := header
    ownsBase := ownsBase
    initialPenalty := penalty }

variable (node : AugmentedLagrangian α)

/-- The penalty data in force. -/
def penalty (store : Store α) : Penalty α :=
  (store.penalties.get? node.serial).getD node.initialPenalty

/-- Replace penalty parameters and multipliers. Data that are refused change nothing. -/
def update (base : Header α) (mu y : Tensor α) : Eval α Unit := do
  let penalty ← Eval.ofExcept (Penalty.make mu y)
  Eval.checkVectors base.ncon [penalty.mu.shape]
  modify fun store => { store with penalties := store.penalties.set node.serial penalty }
  Eval.record (.augmentedLagrangianUpdated node.header.name
    (Vec.largest (penalty.mu.entries.headD 0) penalty.mu.entries) (Vec.maxAbs penalty.y.entries))

/-- The buffers as earlier evaluations left them. -/
def scratch (base : Oracle α) (store : Store α) : Scratch α :=
  (store.scratch.get? node.serial).getD {
    constraints := Vec.zeros base.header.ncon
    residual := Vec.zeros base.header.ncon
    multipliers := Vec.zeros base.header.ncon
    pullback := Vec.zeros base.header.nvar }

/-- Change the buffers. -/
def modifyScratch (base : Oracle α) (change : Scratch α → Scratch α) : Eval α Unit :=
  modify fun store =>
    { store with scratch := store.scratch.set node.serial (change (node.scratch base store)) }

/-- Evaluate the constraints of the base into their buffer. -/
def constraintValues (base : Oracle α) (x : List α) : Eval α (List α) := do
  let scratch := node.scratch base (← get)
  let values ← base.constraints (.vector x) (some (.vector scratch.constraints))
  node.modifyScratch base fun scratch => { scratch with constraints := values }
  return values

/-- From constraint values, the penalty term of the Lagrangian and the multiplier estimate. -/
def penaltyTerm (base : Oracle α) (values : List α) : Eval α (α × List α) := do
  let penalty := node.penalty (← get)
  let shifted := Vec.add values penalty.shift.entries
  node.modifyScratch base fun scratch => { scratch with residual := shifted }
  let scratch := node.scratch base (← get)
  let projected ← base.project (.vector shifted) (some (.vector scratch.multipliers))
  let residual := Vec.sub shifted projected
  let estimate := Vec.div residual penalty.mu.entries
  node.modifyScratch base fun scratch =>
    { scratch with residual := residual, multipliers := estimate }
  return (Scalar.half * Vec.dot residual estimate - penalty.offset, estimate)

/-- The transposed Jacobian of the base times a multiplier estimate, in its buffer. -/
def pullback (base : Oracle α) (x estimate : List α) : Eval α (List α) := do
  let scratch := node.scratch base (← get)
  let content ←
    base.adjointProduct (.vector x) (.vector estimate) (some (.vector scratch.pullback))
  node.modifyScratch base fun scratch => { scratch with pullback := content }
  return content

/-- Evaluate `L(x)`. -/
def objective (base : Oracle α) (x : List α) : Eval α α := do
  let scratch := node.scratch base (← get)
  let (value, values) ←
    base.objectiveConstraints (.vector x) (some (.vector scratch.constraints))
  node.modifyScratch base fun scratch => { scratch with constraints := values }
  let (term, _) ← node.penaltyTerm base values
  return value + term

/-- Evaluate the gradient of `L` at `x`. -/
def gradient (base : Oracle α) (x out : List α) : Eval α (List α) := do
  let values ← node.constraintValues base x
  let (_, estimate) ← node.penaltyTerm base values
  let slope ← base.gradient (.vector x) (some (.vector out))
  let correction ← node.pullback base x estimate
  return Vec.add slope correction

/-- Evaluate `L(x)` and its gradient from one evaluation of the constraints. -/
def objectiveGradient (base : Oracle α) (x out : List α) : Eval α (α × List α) := do
  let values ← node.constraintValues base x
  let (term, estimate) ← node.penaltyTerm base values
  let (value, slope) ← base.objectiveGradient (.vector x) (some (.vector out))
  let correction ← node.pullback base x estimate
  return (value + term, Vec.add slope correction)

/-- Evaluate the multiplier estimate `(w - z) / mu` at `x`. -/
def multiplierEstimate (base : Oracle α) (x : Tensor α) (out : Option (Tensor α)) :
    Eval α (List α) := do
  let out := Oracle.buffer base.header.ncon out
  Eval.checkVectors node.header.nvar [x.shape]
  Eval.checkVectors base.header.ncon [out.shape]
  let values ← node.constraintValues base x.entries
  let (_, estimate) ← node.penaltyTerm base values
  return estimate

/-- The hooks of the augmented Lagrangian. -/
def hooks (base : Oracle α) : Hooks α where
  objective := node.objective base
  gradient := node.gradient base
  objectiveGradient := node.objectiveGradient base
  constraints := Unconstrained.constraints
  objectiveConstraints := Hooks.separateObjectiveConstraints node.header (node.objective base)
    Unconstrained.constraints
  jacobianProduct := Unconstrained.jacobianProduct
  adjointProduct := Unconstrained.adjointProduct
  project := Hooks.withoutSet .augmentedLagrangian
  distance := Hooks.distanceToProjection (Hooks.withoutSet .augmentedLagrangian)
  proximal x step out := base.proximal (.vector x) step (some (.vector out))
  proximalWithValue x step out := base.proximalWithValue (.vector x) step (some (.vector out))

/-- The oracle of the augmented Lagrangian. -/
def oracle (base : Oracle α) : Oracle α where
  header := node.header
  kind := .augmentedLagrangian
  hooks := node.hooks base

end AugmentedLagrangian

end CompositeModels
