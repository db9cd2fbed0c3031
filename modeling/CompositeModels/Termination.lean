/-
Module: CompositeModels.Termination
Purpose: The statuses with which solvers end, and the record of a run.
Main exports: Status, Status.key, Status.message, Status.find, Termination, Termination.make
-/
import CompositeModels.Store

namespace CompositeModels

/-- How a solver ended. -/
inductive Status where
  | exception
  | firstOrder
  | acceptable
  | infeasible
  | maxEvaluations
  | maxIterations
  | maxTime
  | negativePrediction
  | notDescent
  | smallResidual
  | smallStep
  | stalled
  | unbounded
  | unknown
  | undefinedValue
  | user
deriving Repr, Inhabited, DecidableEq

namespace Status

/-- The name of a status. -/
def key : Status → String
  | .exception => "exception"
  | .firstOrder => "first_order"
  | .acceptable => "acceptable"
  | .infeasible => "infeasible"
  | .maxEvaluations => "max_eval"
  | .maxIterations => "max_iter"
  | .maxTime => "max_time"
  | .negativePrediction => "neg_pred"
  | .notDescent => "not_desc"
  | .smallResidual => "small_residual"
  | .smallStep => "small_step"
  | .stalled => "stalled"
  | .unbounded => "unbounded"
  | .unknown => "unknown"
  | .undefinedValue => "ieee_nan_inf"
  | .user => "user"

/-- What a status means. -/
def message : Status → String
  | .exception => "unhandled exception"
  | .firstOrder => "first-order stationary"
  | .acceptable => "solved to within acceptable tolerances"
  | .infeasible => "problem may be infeasible"
  | .maxEvaluations => "maximum number of function evaluations"
  | .maxIterations => "maximum iteration"
  | .maxTime => "maximum elapsed time"
  | .negativePrediction => "negative predicted reduction"
  | .notDescent => "not a descent direction"
  | .smallResidual => "small residual"
  | .smallStep => "step too small"
  | .stalled => "stalled"
  | .unbounded => "objective function may be unbounded from below"
  | .unknown => "unknown"
  | .undefinedValue => "NaN or Inf occurred"
  | .user => "user-requested stop"

/-- All statuses, in the order in which they are listed. -/
def all : List Status :=
  [.exception, .firstOrder, .acceptable, .infeasible, .maxEvaluations, .maxIterations, .maxTime,
    .negativePrediction, .notDescent, .smallResidual, .smallStep, .stalled, .unbounded, .unknown,
    .undefinedValue, .user]

/-- The status of a name. -/
def find {α : Type} (key : String) : Except (Error α) Status :=
  match all.find? (·.key == key) with
  | some status => .ok status
  | none => .error (.unknownStatus key)

theorem mem_all (status : Status) : status ∈ all := by
  cases status <;> simp [all]

end Status

/-- The record of a run. It stores results and computes nothing. -/
structure Termination (α details : Type) where
  status : Status
  /-- The final point. -/
  x : Option (Tensor α) := none
  /-- The multipliers at the final point. -/
  y : Option (Tensor α) := none
  /-- The objective at the final point. -/
  objective : Option α := none
  /-- The norm of the dual residual. -/
  optimality : Option α := none
  /-- The norm of the primal residual. -/
  violation : Option α := none
  /-- The elapsed time in seconds. -/
  elapsedTime : Option α := none
  /-- Whatever else the solver reports. -/
  details : details

namespace Termination

variable {α : Type}

/-- Begin a record. A status that does not exist is recorded as an event and refused. -/
def make {details : Type} (status : String) (report : details) : Eval α (Termination α details) :=
  match Status.find status with
  | .ok status => pure { status := status, details := report }
  | .error cause => do
      Eval.record (.statusRefused status)
      throw cause

end Termination

end CompositeModels
