/-
Module: CompositeModels.Error.Message
Purpose: The wording of the causes for which constructions and evaluations are refused.
Main exports: Evaluation.label, ModelKind.label, Error.message
-/
import CompositeModels.Error
import CompositeModels.Text.Number
import CompositeModels.Text.Quoted

namespace CompositeModels

/-- The short name of an evaluation. -/
def Evaluation.label : Evaluation → String
  | .objective => "obj"
  | .gradient => "grad"
  | .constraints => "cons"
  | .jacobianProduct => "jprod"
  | .adjointProduct => "jtprod"

/-- The name of a kind of models. -/
def ModelKind.label : ModelKind → String
  | .backend => "NlpOptiModel"
  | .expression => "AutodiffOptiModel"
  | .slack => "SlackOptiModel"
  | .proximalPoint => "ProxOptiModel"
  | .augmentedLagrangian => "AugLagOptiModel"
  | .feasibility => "FeasOptiModel"
  | .tailored => "CustomModel"

namespace Error

/-- The text that reports a cause. -/
def message : Error Float → String
  | .lengthMismatch position shape expected =>
      s!"Argument {position} has shape {Number.shape shape}, but expected ({expected},)."
  | .constraintsNotVector shape =>
      s!"Constraint map returns shape {Number.shape shape}, expected a vector."
  | .invalidDimensions nvar ncon => s!"Nonsensical dimensions: nvar={nvar}, ncon={ncon}."
  | .nonpositiveStep step => s!"Proximal step must be positive, got {Number.plain step}."
  | .nonpositivePenalty => "Penalty parameters must be positive."
  | .unconstrainedBase => "Augmented Lagrangian reformulation requires a constrained problem."
  | .unknownLoss name => s!"Unknown loss {Quoted.encode name}."
  | .negativeProximalWeight => "Proximal weight must be nonnegative."
  | .negativeProximalScaling => "Proximal scaling must be nonnegative."
  | .nonpositiveHuberParameter => "Huber parameters must be positive."
  | .multipliersWithoutConstraints => "Initial dual guess given without constraints."
  | .noConstraintSet kind => s!"{kind.label} has no constraint set to project onto."
  | .noProximableTerm kind => s!"{kind.label} has no proximable term."
  | .unknownStatus name => Quoted.encode name
  | .unknownField name => s!"ModelMeta.make() got an unexpected keyword argument '{name}'"
  | .missingAxis => "tuple index out of range"
  | .incompatibleShapes left right =>
      "operands could not be broadcast together with shapes " ++ Number.compactShape left ++ " " ++
        Number.compactShape right ++ " "
  | .divisionByZero => "float division by zero"
  | .evaluationFailed evaluation => s!"{evaluation.label} failed"

end Error

end CompositeModels
