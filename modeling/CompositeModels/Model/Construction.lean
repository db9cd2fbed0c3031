/-
Module: CompositeModels.Model.Construction
Purpose: Building leaves and reformulating models. A construction that is refused changes nothing.
Main exports: Model.ofBackend, Model.ofExpressions, Model.withSlacks, Model.proximalSubproblem,
  Model.augmented, Model.feasibilityProblem, Model.tailor
-/
import CompositeModels.Model

namespace CompositeModels.Model

variable {α : Type}

/-- The model of a backend with the given serial number. -/
def ofBackend [Scalar α] (backendSerial : Nat) (backend : Backend α) (name : Option String)
    (ownsBackend : Bool) : Eval α (Model α) := do
  return .backend (← BackendLeaf.build backendSerial backend name ownsBackend)

/-- The model of an objective and a constraint map. -/
def ofExpressions [Elementary α] (objective : Expression α) (x0 : Tensor α)
    (constraints : Option (ConstraintMap α)) (y0 : Option (Tensor α)) (minimize : Bool)
    (name : String) : Eval α (Model α) := do
  return .expression (← ExpressionLeaf.build objective x0 constraints y0 minimize name)

variable [Scalar α] (base : Model α)

/-- The slack reformulation of a base. -/
def withSlacks (name : Option String) (ownsBase : Bool) : Eval α (Model α) := do
  return .slack (← Slack.build base.header name ownsBase) base

/-- The proximal-point subproblem of a base. -/
def proximalSubproblem (step : α) (x0 y0 : Option (Tensor α)) (name : Option String)
    (ownsBase : Bool) : Eval α (Model α) := do
  return .proximalPoint (← ProximalPoint.build base.header step x0 y0 name ownsBase) base

/-- The augmented Lagrangian of a base. -/
def augmented (mu y : Tensor α) (name : Option String) (ownsBase : Bool) : Eval α (Model α) := do
  return .augmentedLagrangian (← AugmentedLagrangian.build base.header mu y name ownsBase) base

/-- The feasibility problem of a base. -/
def feasibilityProblem (options : Feasibility.Options α) (name : Option String) (ownsBase : Bool) :
    Eval α (Model α) := do
  return .feasibility (← Feasibility.build base.header options name ownsBase) base

/-- A base with another header, set and term. -/
def tailor (changes : Header.Changes α) (constraintSet : Option (ConstraintSet α))
    (term : Option (ProximableTerm α)) (ownsBase : Bool) : Eval α (Model α) := do
  return .tailored (← Tailored.build base.header changes constraintSet term ownsBase) base

end CompositeModels.Model
