/-
Module: CompositeModels.Model.InPlace
Purpose: How each model writes into the buffer of its caller. A reformulation hands the buffer, or blocks
  of it, to its base, and completes or changes what is there afterwards. So a failure may leave a buffer
  that is finished in parts only. The buffers that a reformulation keeps for itself are in the store.
Main exports: BackendLeaf.writes, ExpressionLeaf.writes, Slack.writes, ProximalPoint.writes,
  AugmentedLagrangian.writes, AugmentedLagrangian.writeMultiplierEstimate, Feasibility.writes,
  Feasibility.writeInfeasibilityGradient, Tailored.writes, Model.writer
-/
import CompositeModels.InPlace
import CompositeModels.Model

namespace CompositeModels

open InPlace (lift shape change write clear fill onBlocks)

variable {α : Type}

/-- A backend hands over a result, which is written once the evaluation has returned. -/
def BackendLeaf.writes [Scalar α] (leaf : BackendLeaf α) : WriteHooks α where
  gradient x := fill (leaf.call .gradient (·.gradient x))
  objectiveGradient := WriteHooks.separateObjectiveGradient
    (fun x => leaf.call .objective (·.objective x))
    (fun x => fill (leaf.call .gradient (·.gradient x)))
  constraints x := fill (leaf.call .constraints (·.constraints x))
  objectiveConstraints := WriteHooks.separateObjectiveConstraints leaf.header
    (fun x => leaf.call .objective (·.objective x))
    (fun x => fill (leaf.call .constraints (·.constraints x)))
  jacobianProduct x v := fill (leaf.call .jacobianProduct (·.jacobianProduct x v))
  adjointProduct x v := fill (leaf.call .adjointProduct (·.adjointProduct x v))
  project v := write (leaf.constraintBox.clamp v)
  proximal x _ := write (leaf.variableBox.clamp x)
  proximalWithValue x _ := do
    write (leaf.variableBox.clamp x)
    return 0

/-- Results of expressions are copied into the buffer. -/
def ExpressionLeaf.writes [Elementary α] (leaf : ExpressionLeaf α) : WriteHooks α where
  gradient x := write (leaf.objective.gradient x)
  objectiveGradient := WriteHooks.separateObjectiveGradient
    (fun x => pure (leaf.objective.value x)) (fun x => write (leaf.objective.gradient x))
  constraints x := write (leaf.values x)
  objectiveConstraints := WriteHooks.separateObjectiveConstraints leaf.header
    (fun x => pure (leaf.objective.value x)) (fun x => write (leaf.values x))
  jacobianProduct x v := write (leaf.pushforward x v)
  adjointProduct x v := write (leaf.pullback x v)
  project := WriteHooks.withoutSet .expression
  proximal := WriteHooks.withoutTerm .expression
  proximalWithValue := WriteHooks.withoutTerm .expression

namespace Slack

variable [Scalar α] (base : Writer α)

/-- Let the base write, then take the slacks away from what it wrote. -/
def writeConstraints (x : List α) : InPlace α Unit := do
  base.constraints (.vector (baseBlock base.toOracle x)) (← shape)
  change (Vec.sub · (slackBlock base.toOracle x))

/-- The base writes into its block, the other one is cleared, negated or projected into. -/
def writes (header : Header α) : WriteHooks α where
  gradient x := onBlocks base.header.nvar
    (do base.gradient (.vector (baseBlock base.toOracle x)) (← shape)) clear
  objectiveGradient x := onBlocks base.header.nvar
    (do base.objectiveGradient (.vector (baseBlock base.toOracle x)) (← shape)) clear
  constraints := writeConstraints base
  objectiveConstraints := WriteHooks.separateObjectiveConstraints header
    (fun x => base.objective (.vector (baseBlock base.toOracle x))) (writeConstraints base)
  jacobianProduct x v := do
    base.jacobianProduct (.vector (baseBlock base.toOracle x))
      (.vector (baseBlock base.toOracle v)) (← shape)
    change (Vec.sub · (slackBlock base.toOracle v))
  adjointProduct x v := onBlocks base.header.nvar
    (do base.adjointProduct (.vector (baseBlock base.toOracle x)) (.vector v) (← shape))
    (write (Vec.neg v))
  project _ := clear
  proximal x step := onBlocks base.header.nvar
    (do base.proximal (.vector (baseBlock base.toOracle x)) step (← shape))
    (do base.project (.vector (slackBlock base.toOracle x)) (← shape))
  proximalWithValue x step := onBlocks base.header.nvar
    (do base.proximalWithValue (.vector (baseBlock base.toOracle x)) step (← shape))
    (do base.project (.vector (slackBlock base.toOracle x)) (← shape))

end Slack

/-- The gradient is written in two steps. Everything but the smooth part is left to the base. -/
def ProximalPoint.writes [Scalar α] (node : ProximalPoint α) (base : Writer α) : WriteHooks α where
  gradient := gradient
  objectiveGradient :=
    WriteHooks.separateObjectiveGradient (fun x => pure (node.objective x)) gradient
  constraints := constraints
  objectiveConstraints := WriteHooks.separateObjectiveConstraints node.header
    (fun x => pure (node.objective x)) constraints
  jacobianProduct x v := do base.jacobianProduct (.vector x) (.vector v) (← shape)
  adjointProduct x v := do base.adjointProduct (.vector x) (.vector v) (← shape)
  project v := do base.project (.vector v) (← shape)
  proximal x step := do base.proximal (.vector x) step (← shape)
  proximalWithValue x step := do base.proximalWithValue (.vector x) step (← shape)
where
  gradient (x : List α) : InPlace α Unit := do
    write (Vec.sub x node.anchor)
    change (Vec.divide · node.step)
  constraints (x : List α) : InPlace α Unit := do base.constraints (.vector x) (← shape)

namespace Unconstrained

/-- Nothing is written. -/
def writeConstraints (_x : List α) : InPlace α Unit := pure ()

/-- Nothing is written. -/
def writeJacobianProduct (_x _v : List α) : InPlace α Unit := pure ()

/-- The buffer is filled with zeros. -/
def writeAdjointProduct [Scalar α] (_x _v : List α) : InPlace α Unit := clear

end Unconstrained

namespace AugmentedLagrangian

variable [Scalar α] (node : AugmentedLagrangian α) (base : Writer α)

/-- Once the multiplier estimate is there, the gradient of the base is written, and the correction is
added to it. A correction that fails leaves the gradient of the base behind. -/
def writeGradient (x : List α) : InPlace α Unit := do
  let values ← lift (node.constraintValues base.toOracle x)
  let (_, estimate) ← lift (node.penaltyTerm base.toOracle values)
  base.gradient (.vector x) (← shape)
  let correction ← lift (node.pullback base.toOracle x estimate)
  change (Vec.add · correction)

/-- As `writeGradient`, with the value of the Lagrangian. -/
def writeObjectiveGradient (x : List α) : InPlace α α := do
  let values ← lift (node.constraintValues base.toOracle x)
  let (term, estimate) ← lift (node.penaltyTerm base.toOracle values)
  let value ← base.objectiveGradient (.vector x) (← shape)
  let correction ← lift (node.pullback base.toOracle x estimate)
  change (Vec.add · correction)
  return value + term

/-- Write the multiplier estimate at `x` into a buffer of the shape `out`. -/
def writeMultiplierEstimate (x : Tensor α) (out : Shape) : InPlace α Unit := do
  InPlace.checkVectors node.header.nvar [x.shape]
  InPlace.checkVectors base.header.ncon [out]
  let values ← lift (node.constraintValues base.toOracle x.entries)
  let (_, estimate) ← lift (node.penaltyTerm base.toOracle values)
  write estimate

/-- How the augmented Lagrangian writes. -/
def writes : WriteHooks α where
  gradient := node.writeGradient base
  objectiveGradient := node.writeObjectiveGradient base
  constraints := Unconstrained.writeConstraints
  objectiveConstraints := WriteHooks.separateObjectiveConstraints node.header
    (node.objective base.toOracle) Unconstrained.writeConstraints
  jacobianProduct := Unconstrained.writeJacobianProduct
  adjointProduct := Unconstrained.writeAdjointProduct
  project := WriteHooks.withoutSet .augmentedLagrangian
  proximal x step := do base.proximal (.vector x) step (← shape)
  proximalWithValue x step := do base.proximalWithValue (.vector x) step (← shape)

end AugmentedLagrangian

namespace Feasibility

variable [Scalar α] (node : Feasibility α) (base : Writer α)

/-- Write the gradient of the loss at `x` into a buffer of the shape `out`. -/
def writeInfeasibilityGradient (x : Tensor α) (out : Shape) : InPlace α Unit := do
  InPlace.checkVectors node.header.nvar [x.shape, out]
  let r ← lift (node.residual base.toOracle x.entries)
  match ← lift (Eval.ofExcept (node.loss.direction node.huber r)) with
  | none => clear
  | some direction => base.adjointProduct (.vector x.entries) (.vector direction) (← shape)

/-- Write the gradient of the loss, and add that of the proximal term to it if the term is active. -/
def writeGradient (x : List α) : InPlace α Unit := do
  node.writeInfeasibilityGradient base (.vector x) (← shape)
  if node.withProximalTerm then
    change (Vec.add · (Vec.mul (Vec.scale node.weight node.scaling) (Vec.sub x node.center)))

/-- How the feasibility problem writes. -/
def writes : WriteHooks α where
  gradient := node.writeGradient base
  objectiveGradient := WriteHooks.separateObjectiveGradient (node.objective base.toOracle)
    (node.writeGradient base)
  constraints := Unconstrained.writeConstraints
  objectiveConstraints := WriteHooks.separateObjectiveConstraints node.header
    (node.objective base.toOracle) Unconstrained.writeConstraints
  jacobianProduct := Unconstrained.writeJacobianProduct
  adjointProduct := Unconstrained.writeAdjointProduct
  project := WriteHooks.withoutSet .feasibility
  proximal x step :=
    if node.withIndicator then do base.proximal (.vector x) step (← shape) else write x
  proximalWithValue x step :=
    if node.withIndicator then do base.proximalWithValue (.vector x) step (← shape)
    else do
      write x
      return 0

end Feasibility

namespace Tailored

variable [Scalar α] (node : Tailored α) (base : Writer α)

/-- Write the projection onto the set, if there is one. -/
def writeProjection (v : List α) : InPlace α Unit :=
  match node.constraintSet with
  | none => WriteHooks.withoutSet .tailored v
  | some .ofBase => do base.project (.vector v) (← shape)
  | some (.projectedBy project) => fill (Eval.ofExcept (project v))

/-- Write the proximal point of the term, if there is one. -/
def writeProximal (x : List α) (step : α) : InPlace α Unit :=
  match node.term with
  | none => WriteHooks.withoutTerm .tailored x step
  | some term => write (term.proximal x step)

/-- As `writeProximal`, with the value of the term. -/
def writeProximalWithValue (x : List α) (step : α) : InPlace α α :=
  match node.term with
  | none => WriteHooks.withoutTerm .tailored x step
  | some term => do
      write (term.proximal x step)
      return term.value (term.proximal x step)

/-- The smooth evaluations and the products are left to the base. -/
def writes : WriteHooks α where
  gradient := gradient
  objectiveGradient :=
    WriteHooks.separateObjectiveGradient (fun x => base.objective (.vector x)) gradient
  constraints := constraints
  objectiveConstraints := WriteHooks.separateObjectiveConstraints node.header
    (fun x => base.objective (.vector x)) constraints
  jacobianProduct x v := do base.jacobianProduct (.vector x) (.vector v) (← shape)
  adjointProduct x v := do base.adjointProduct (.vector x) (.vector v) (← shape)
  project := node.writeProjection base
  proximal := node.writeProximal
  proximalWithValue := node.writeProximalWithValue
where
  gradient (x : List α) : InPlace α Unit := do base.gradient (.vector x) (← shape)
  constraints (x : List α) : InPlace α Unit := do base.constraints (.vector x) (← shape)

end Tailored

/-- A model with the way in which it writes, built from that of its base. -/
def Model.writer [Elementary α] : Model α → Writer α
  | .backend leaf => ⟨leaf.oracle, leaf.writes⟩
  | .expression leaf => ⟨leaf.oracle, leaf.writes⟩
  | .slack node base => ⟨Slack.oracle node base.oracle, Slack.writes base.writer node.header⟩
  | .proximalPoint node base => ⟨node.oracle base.oracle, node.writes base.writer⟩
  | .augmentedLagrangian node base => ⟨node.oracle base.oracle, node.writes base.writer⟩
  | .feasibility node base => ⟨node.oracle base.oracle, node.writes base.writer⟩
  | .tailored node base => ⟨node.oracle base.oracle, node.writes base.writer⟩

end CompositeModels
