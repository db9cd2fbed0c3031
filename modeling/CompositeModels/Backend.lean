/-
Module: CompositeModels.Backend
Purpose: Differentiable problems with bounds on the variables and on the constraints, as a leaf model
  is built on them. A backend answers each evaluation as a function of the point, or fails at it.
Main exports: BackendData, Backend, Tally
-/
import CompositeModels.Error

namespace CompositeModels

/-- The dimensions, initial guesses, bounds and sense of a problem, as its author wrote them. A leaf
model validates them when it is built. -/
structure BackendData (α : Type) where
  name : String
  nvar : Int
  ncon : Int
  x0 : Tensor α
  y0 : Tensor α
  minimize : Bool
  /-- Lower bounds of the variables. A missing bound is no bound. -/
  lower : Tensor (Option α)
  /-- Upper bounds of the variables. -/
  upper : Tensor (Option α)
  /-- Lower bounds of the constraints. -/
  lowerCon : Tensor (Option α)
  /-- Upper bounds of the constraints. -/
  upperCon : Tensor (Option α)
  /-- Whether the backend holds resources that closing it releases. -/
  closable : Bool

/-- A differentiable problem

    optimize    f(x)
    subject to  lower <= x <= upper
                lowerCon <= c(x) <= upperCon -/
structure Backend (α : Type) extends BackendData α where
  objective : List α → Except (Error α) α
  gradient : List α → Except (Error α) (List α)
  constraints : List α → Except (Error α) (List α)
  /-- The Jacobian of the constraints at the first argument times the second. -/
  jacobianProduct : List α → List α → Except (Error α) (List α)
  /-- The transposed Jacobian of the constraints at the first argument times the second. -/
  adjointProduct : List α → List α → Except (Error α) (List α)

/-- How often each evaluation of a backend was called, and how often it was closed. -/
structure Tally where
  objective : Nat := 0
  gradient : Nat := 0
  constraints : Nat := 0
  jacobianProduct : Nat := 0
  adjointProduct : Nat := 0
  closed : Nat := 0
deriving Repr, Inhabited, DecidableEq

namespace Tally

/-- The number of calls of an evaluation. -/
def count (tally : Tally) : Evaluation → Nat
  | .objective => tally.objective
  | .gradient => tally.gradient
  | .constraints => tally.constraints
  | .jacobianProduct => tally.jacobianProduct
  | .adjointProduct => tally.adjointProduct

/-- Count one more call of an evaluation. -/
def record (tally : Tally) : Evaluation → Tally
  | .objective => { tally with objective := tally.objective + 1 }
  | .gradient => { tally with gradient := tally.gradient + 1 }
  | .constraints => { tally with constraints := tally.constraints + 1 }
  | .jacobianProduct => { tally with jacobianProduct := tally.jacobianProduct + 1 }
  | .adjointProduct => { tally with adjointProduct := tally.adjointProduct + 1 }

/-- Count one more closing. -/
def recordClosing (tally : Tally) : Tally := { tally with closed := tally.closed + 1 }

end Tally

end CompositeModels
