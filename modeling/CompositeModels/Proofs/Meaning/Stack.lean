/-
Module: CompositeModels.Proofs.Meaning.Stack
Purpose: The meaning of a model, from the meaning of its base. The meaning of `c`, `S` and `g` is fixed
  when a model is built. That of `f` depends on the penalty data in force, and on nothing else that a
  store holds.
Main exports: Model.constraintMeaning, Model.termMeaning, Model.smoothMeaning,
  AugmentedLagrangian.penaltyMeaning, AugmentedLagrangian.estimateMeaning,
  Feasibility.residualMeaning, Feasibility.infeasibilityMeaning, TermMeaning.HandsOn
-/
import CompositeModels.Model
import CompositeModels.Proofs.Meaning

namespace CompositeModels

/-! ### Leaves -/

namespace BackendLeaf

variable {α : Type} [Scalar α] (leaf : BackendLeaf α)

/-- The backend's constraints, with the box of their bounds. -/
def constraintMeaning : ConstraintMeaning α where
  nvar := leaf.header.nvar
  ncon := leaf.header.ncon
  constraints := leaf.backend.constraints
  jacobianProduct := leaf.backend.jacobianProduct
  adjointProduct := leaf.backend.adjointProduct
  project v := .ok (leaf.constraintBox.clamp v)
  distance := ConstraintMeaning.distanceToProjection fun v => .ok (leaf.constraintBox.clamp v)

/-- The indicator of the box of the variable bounds. -/
def termMeaning : TermMeaning α where
  nvar := leaf.header.nvar
  proximal x _ := .ok (leaf.variableBox.clamp x)
  proximalWithValue x _ := .ok (0, leaf.variableBox.clamp x)

/-- The backend's objective. -/
def smoothMeaning : SmoothMeaning α where
  nvar := leaf.header.nvar
  objective := leaf.backend.objective
  gradient := leaf.backend.gradient
  objectiveGradient :=
    SmoothMeaning.separateObjectiveGradient leaf.backend.objective leaf.backend.gradient

end BackendLeaf

namespace ExpressionLeaf

variable {α : Type} [Elementary α] (leaf : ExpressionLeaf α)

/-- The constraint map, without a set. -/
def constraintMeaning : ConstraintMeaning α where
  nvar := leaf.header.nvar
  ncon := leaf.header.ncon
  constraints x := .ok (leaf.values x)
  jacobianProduct x v := .ok (leaf.pushforward x v)
  adjointProduct x v := .ok (leaf.pullback x v)
  project _ := .error (.noConstraintSet .expression)
  distance _ := .error (.noConstraintSet .expression)

/-- There is no proximable term. -/
def termMeaning : TermMeaning α where
  nvar := leaf.header.nvar
  proximal _ _ := .error (.noProximableTerm .expression)
  proximalWithValue _ _ := .error (.noProximableTerm .expression)

/-- The objective and its backward derivative. -/
def smoothMeaning : SmoothMeaning α where
  nvar := leaf.header.nvar
  objective x := .ok (leaf.objective.value x)
  gradient x := .ok (leaf.objective.gradient x)
  objectiveGradient x := .ok (leaf.objective.value x, leaf.objective.gradient x)

end ExpressionLeaf

/-! ### Slacks -/

namespace Slack

variable {α : Type} [Scalar α] (wrapper : Wrapper α)

/-- At `[x; s]`, the constraint values are `c(x) - s` and the set is the zero vector alone. -/
def constraintMeaning (base : ConstraintMeaning α) : ConstraintMeaning α where
  nvar := wrapper.header.nvar
  ncon := wrapper.header.ncon
  constraints x := do
    let content ← base.constraintsAt (.vector (x.take base.nvar)) none
    return Vec.sub content (x.drop base.nvar)
  jacobianProduct x v := do
    let content ←
      base.jacobianProductAt (.vector (x.take base.nvar)) (.vector (v.take base.nvar)) none
    return Vec.sub content (v.drop base.nvar)
  adjointProduct x v := do
    let content ← base.adjointProductAt (.vector (x.take base.nvar)) (.vector v) none
    return content ++ Vec.neg v
  project v := .ok (Vec.zeroed v)
  distance v := .ok (Vec.norm v)

/-- The term of the base on `x`, and the indicator of its set on `s`. -/
def termMeaning (restriction : ConstraintMeaning α) (base : TermMeaning α) : TermMeaning α where
  nvar := wrapper.header.nvar
  proximal x step := do
    let point ← base.proximalAt (.vector (x.take restriction.nvar)) step none
    let projected ← restriction.projectAt (.vector (x.drop restriction.nvar)) none
    return point ++ projected
  proximalWithValue x step := do
    let (value, point) ← base.proximalWithValueAt (.vector (x.take restriction.nvar)) step none
    let projected ← restriction.projectAt (.vector (x.drop restriction.nvar)) none
    return (value, point ++ projected)

/-- The objective of the base at `x`, whatever `s` is. -/
def smoothMeaning (base : SmoothMeaning α) : SmoothMeaning α where
  nvar := wrapper.header.nvar
  objective x := base.objectiveAt (.vector (x.take base.nvar))
  gradient x := do
    let slope ← base.gradientAt (.vector (x.take base.nvar)) none
    return slope ++ Vec.zeroed (x.drop base.nvar)
  objectiveGradient x := do
    let (value, slope) ← base.objectiveGradientAt (.vector (x.take base.nvar)) none
    return (value, slope ++ Vec.zeroed (x.drop base.nvar))

end Slack

/-! ### Proximal points -/

namespace ProximalPoint

variable {α : Type} [Scalar α] (node : ProximalPoint α)

/-- The constraints and the set of the base. -/
def constraintMeaning (base : ConstraintMeaning α) : ConstraintMeaning α where
  nvar := node.header.nvar
  ncon := node.header.ncon
  constraints x := base.constraintsAt (.vector x) none
  jacobianProduct x v := base.jacobianProductAt (.vector x) (.vector v) none
  adjointProduct x v := base.adjointProductAt (.vector x) (.vector v) none
  project v := base.projectAt (.vector v) none
  distance := ConstraintMeaning.distanceToProjection fun v => base.projectAt (.vector v) none

/-- The term of the base. -/
def termMeaning (base : TermMeaning α) : TermMeaning α where
  nvar := node.header.nvar
  proximal x step := base.proximalAt (.vector x) step none
  proximalWithValue x step := base.proximalWithValueAt (.vector x) step none

/-- The scaled squared distance from the anchor. -/
def smoothMeaning : SmoothMeaning α where
  nvar := node.header.nvar
  objective x := .ok (node.objective x)
  gradient x := .ok (node.gradient x)
  objectiveGradient x := .ok (node.objective x, node.gradient x)

end ProximalPoint

/-- A reformulation without constraints has no set either. -/
def Unconstrained.constraintMeaning {α : Type} [Scalar α] (wrapper : Wrapper α) (kind : ModelKind) :
    ConstraintMeaning α where
  nvar := wrapper.header.nvar
  ncon := wrapper.header.ncon
  constraints _ := .ok []
  jacobianProduct _ _ := .ok []
  adjointProduct _ _ := .ok (Vec.zeros wrapper.header.nvar)
  project _ := .error (.noConstraintSet kind)
  distance _ := .error (.noConstraintSet kind)

/-! ### Augmented Lagrangians -/

namespace AugmentedLagrangian

variable {α : Type} [Scalar α] (node : AugmentedLagrangian α)

/-- The penalty data in force, from the table of those that were replaced. -/
def penaltyIn (penalties : Table (Penalty α)) : Penalty α :=
  (penalties.get? node.serial).getD node.initialPenalty

/-- From constraint values, the penalty term and the multiplier estimate. -/
def penaltyMeaning (penalty : Penalty α) (base : ConstraintMeaning α) (values : List α) :
    Except (Error α) (α × List α) := do
  let shifted := Vec.add values penalty.shift.entries
  let projected ← base.projectAt (.vector shifted) none
  let residual := Vec.sub shifted projected
  let estimate := Vec.div residual penalty.mu.entries
  return (Scalar.half * Vec.dot residual estimate - penalty.offset, estimate)

/-- The multiplier estimate at `x`. -/
def estimateMeaning (penalty : Penalty α) (base : ConstraintMeaning α) (x : List α) :
    Except (Error α) (List α) := do
  let values ← base.constraintsAt (.vector x) none
  let (_, estimate) ← penaltyMeaning penalty base values
  return estimate

/-- The term of the base. -/
def termMeaning (base : TermMeaning α) : TermMeaning α where
  nvar := node.header.nvar
  proximal x step := base.proximalAt (.vector x) step none
  proximalWithValue x step := base.proximalWithValueAt (.vector x) step none

/-- The objective of the base, and the penalty term. -/
def smoothMeaning (penalty : Penalty α) (restriction : ConstraintMeaning α)
    (base : SmoothMeaning α) : SmoothMeaning α where
  nvar := node.header.nvar
  objective x := do
    let (value, values) ← base.objectiveConstraintsAt restriction (.vector x) none
    let (term, _) ← penaltyMeaning penalty restriction values
    return value + term
  gradient x := do
    let values ← restriction.constraintsAt (.vector x) none
    let (_, estimate) ← penaltyMeaning penalty restriction values
    let slope ← base.gradientAt (.vector x) none
    let correction ← restriction.adjointProductAt (.vector x) (.vector estimate) none
    return Vec.add slope correction
  objectiveGradient x := do
    let values ← restriction.constraintsAt (.vector x) none
    let (term, estimate) ← penaltyMeaning penalty restriction values
    let (value, slope) ← base.objectiveGradientAt (.vector x) none
    let correction ← restriction.adjointProductAt (.vector x) (.vector estimate) none
    return (value + term, Vec.add slope correction)

end AugmentedLagrangian

/-! ### Feasibility problems -/

namespace Feasibility

variable {α : Type} [Scalar α] (node : Feasibility α)

/-- The residual `c(x) - proj_S(c(x))`. -/
def residualMeaning (base : ConstraintMeaning α) (x : List α) : Except (Error α) (List α) := do
  let values ← base.constraintsAt (.vector x) none
  let projected ← base.projectAt (.vector values) none
  return Vec.sub values projected

/-- The loss of the residual. -/
def infeasibilityMeaning (base : ConstraintMeaning α) (x : List α) : Except (Error α) α := do
  let r ← residualMeaning base x
  return node.loss.value node.huber r

/-- The transposed Jacobian of the base times the direction of the loss, or zero where the loss has no
direction. -/
def infeasibilityGradientMeaning (base : ConstraintMeaning α) (x : List α) :
    Except (Error α) (List α) := do
  let r ← residualMeaning base x
  match ← node.loss.direction node.huber r with
  | none => return Vec.zeros node.header.nvar
  | some direction => base.adjointProductAt (.vector x) (.vector direction) none

/-- The largest absolute value in the residual. -/
def violationMeaning (base : ConstraintMeaning α) (x : List α) : Except (Error α) α := do
  let r ← residualMeaning base x
  return Vec.maxAbs r

/-- Half the scaled squared distance from the center. -/
def proximalDistanceMeaning (x : List α) : α :=
  let d := Vec.sub x node.center
  Scalar.half * Vec.total (Vec.mul (Vec.mul node.scaling d) d)

/-- The loss, and the proximal term if it is active. -/
def objectiveMeaning (base : ConstraintMeaning α) (x : List α) : Except (Error α) α := do
  let value ← node.infeasibilityMeaning base x
  if node.withProximalTerm then return value + node.weight * node.proximalDistanceMeaning x
  else return value

/-- The gradient of the loss, and that of the proximal term if it is active. -/
def gradientMeaning (base : ConstraintMeaning α) (x : List α) : Except (Error α) (List α) := do
  let slope ← node.infeasibilityGradientMeaning base x
  if node.withProximalTerm then
    return Vec.add slope (Vec.mul (Vec.scale node.weight node.scaling) (Vec.sub x node.center))
  else return slope

/-- The term of the base if it is kept, and the zero function if not. -/
def termMeaning (base : TermMeaning α) : TermMeaning α where
  nvar := node.header.nvar
  proximal x step := if node.withIndicator then base.proximalAt (.vector x) step none else .ok x
  proximalWithValue x step :=
    if node.withIndicator then base.proximalWithValueAt (.vector x) step none else .ok (0, x)

/-- The infeasibility of the base, which knows nothing of its objective. -/
def smoothMeaning (base : ConstraintMeaning α) : SmoothMeaning α where
  nvar := node.header.nvar
  objective := node.objectiveMeaning base
  gradient := node.gradientMeaning base
  objectiveGradient :=
    SmoothMeaning.separateObjectiveGradient (node.objectiveMeaning base) (node.gradientMeaning base)

end Feasibility

/-! ### Tailored models -/

namespace Tailored

variable {α : Type} [Scalar α] (node : Tailored α)

/-- A buffer for a point of the tailored model. -/
def pointBuffer : Option (Tensor α) := some (.vector (Vec.zeros node.header.nvar))

/-- A buffer for constraint values of the tailored model. -/
def valueBuffer : Option (Tensor α) := some (.vector (Vec.zeros node.header.ncon))

/-- Project onto the set, if there is one. -/
def projectMeaning (base : ConstraintMeaning α) (v : List α) : Except (Error α) (List α) :=
  match node.constraintSet with
  | none => .error (.noConstraintSet .tailored)
  | some .ofBase => base.projectAt (.vector v) node.valueBuffer
  | some (.projectedBy project) => project v

/-- The constraints of the base, which checks the buffers of the tailored model against its own
dimensions. -/
def constraintMeaning (base : ConstraintMeaning α) : ConstraintMeaning α where
  nvar := node.header.nvar
  ncon := node.header.ncon
  constraints x := base.constraintsAt (.vector x) node.valueBuffer
  jacobianProduct x v := base.jacobianProductAt (.vector x) (.vector v) node.valueBuffer
  adjointProduct x v := base.adjointProductAt (.vector x) (.vector v) node.pointBuffer
  project := node.projectMeaning base
  distance := ConstraintMeaning.distanceToProjection (node.projectMeaning base)

/-- The term of its own, if there is one. -/
def termMeaning : TermMeaning α where
  nvar := node.header.nvar
  proximal x step :=
    match node.term with
    | none => .error (.noProximableTerm .tailored)
    | some term => .ok (term.proximal x step)
  proximalWithValue x step :=
    match node.term with
    | none => .error (.noProximableTerm .tailored)
    | some term => .ok (term.value (term.proximal x step), term.proximal x step)

/-- The objective of the base. -/
def smoothMeaning (base : SmoothMeaning α) : SmoothMeaning α where
  nvar := node.header.nvar
  objective x := base.objectiveAt (.vector x)
  gradient x := base.gradientAt (.vector x) node.pointBuffer
  objectiveGradient := SmoothMeaning.separateObjectiveGradient (fun x => base.objectiveAt (.vector x))
    (fun x => base.gradientAt (.vector x) node.pointBuffer)

end Tailored

/-! ### Whole models -/

namespace Model

variable {α : Type} [Elementary α]

/-- The answers of a model about `c` and `S`. -/
def constraintMeaning : Model α → ConstraintMeaning α
  | .backend leaf => leaf.constraintMeaning
  | .expression leaf => leaf.constraintMeaning
  | .slack node base => Slack.constraintMeaning node base.constraintMeaning
  | .proximalPoint node base => node.constraintMeaning base.constraintMeaning
  | .augmentedLagrangian node _ => Unconstrained.constraintMeaning node.toWrapper .augmentedLagrangian
  | .feasibility node _ => Unconstrained.constraintMeaning node.toWrapper .feasibility
  | .tailored node base => node.constraintMeaning base.constraintMeaning

/-- The answers of a model about `g`. -/
def termMeaning : Model α → TermMeaning α
  | .backend leaf => leaf.termMeaning
  | .expression leaf => leaf.termMeaning
  | .slack node base => Slack.termMeaning node base.constraintMeaning base.termMeaning
  | .proximalPoint node base => node.termMeaning base.termMeaning
  | .augmentedLagrangian node base => node.termMeaning base.termMeaning
  | .feasibility node base => node.termMeaning base.termMeaning
  | .tailored node _ => node.termMeaning

/-- The answers of a model about `f`, for given penalty data. -/
def smoothMeaning (penalties : Table (Penalty α)) : Model α → SmoothMeaning α
  | .backend leaf => leaf.smoothMeaning
  | .expression leaf => leaf.smoothMeaning
  | .slack node base => Slack.smoothMeaning node (base.smoothMeaning penalties)
  | .proximalPoint node _ => node.smoothMeaning
  | .augmentedLagrangian node base =>
      node.smoothMeaning (node.penaltyIn penalties) base.constraintMeaning
        (base.smoothMeaning penalties)
  | .feasibility node base => node.smoothMeaning base.constraintMeaning
  | .tailored node base => node.smoothMeaning (base.smoothMeaning penalties)

@[simp] theorem nvar_constraintMeaning (model : Model α) :
    model.constraintMeaning.nvar = model.header.nvar := by
  cases model <;> rfl

@[simp] theorem ncon_constraintMeaning (model : Model α) :
    model.constraintMeaning.ncon = model.header.ncon := by
  cases model <;> rfl

@[simp] theorem nvar_termMeaning (model : Model α) :
    model.termMeaning.nvar = model.header.nvar := by
  cases model <;> rfl

@[simp] theorem nvar_smoothMeaning (penalties : Table (Penalty α)) (model : Model α) :
    (model.smoothMeaning penalties).nvar = model.header.nvar := by
  cases model <;> rfl

end Model

/-! ### Layers that hand the term on -/

/-- A term with the dimension of its base that hands every question on to it. -/
structure TermMeaning.HandsOn {α : Type} [Scalar α] (meaning base : TermMeaning α) : Prop where
  nvar : meaning.nvar = base.nvar
  proximal : ∀ x step, meaning.proximal x step = base.proximalAt (.vector x) step none
  proximalWithValue : ∀ x step,
    meaning.proximalWithValue x step = base.proximalWithValueAt (.vector x) step none

namespace Model

variable {α : Type} [Elementary α] {base : Model α}

theorem handsOn_proximalPoint {node : ProximalPoint α} (nvar : node.header.nvar = base.header.nvar) :
    (Model.proximalPoint node base).termMeaning.HandsOn base.termMeaning where
  nvar := nvar.trans (nvar_termMeaning base).symm
  proximal _ _ := rfl
  proximalWithValue _ _ := rfl

theorem handsOn_augmentedLagrangian {node : AugmentedLagrangian α}
    (nvar : node.header.nvar = base.header.nvar) :
    (Model.augmentedLagrangian node base).termMeaning.HandsOn base.termMeaning where
  nvar := nvar.trans (nvar_termMeaning base).symm
  proximal _ _ := rfl
  proximalWithValue _ _ := rfl

/-- A feasibility problem does so if it keeps the term. -/
theorem handsOn_feasibility {node : Feasibility α} (nvar : node.header.nvar = base.header.nvar)
    (kept : node.withIndicator = true) :
    (Model.feasibility node base).termMeaning.HandsOn base.termMeaning where
  nvar := nvar.trans (nvar_termMeaning base).symm
  proximal x step := by simp only [termMeaning, Feasibility.termMeaning, kept, if_true]
  proximalWithValue x step := by simp only [termMeaning, Feasibility.termMeaning, kept, if_true]

end Model

end CompositeModels
