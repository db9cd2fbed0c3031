/-
Module: CompositeModels.Backend.Polynomial
Purpose: Problems whose objective and constraints are polynomials, as backends. A problem may refuse
  points whose first entry is above a limit, which stands for a domain of definition.
Main exports: Monomial, Polynomial.value, Polynomial.gradient, PolynomialProblem,
  PolynomialProblem.objectiveAt, PolynomialProblem.toBackend
-/
import CompositeModels.Backend

namespace CompositeModels

/-- A coefficient times the variables at the given indices, which may repeat. -/
structure Monomial (α : Type) where
  coefficient : α
  indices : List Nat
deriving Repr, Inhabited

/-- A sum of monomials. -/
abbrev Polynomial (α : Type) := List (Monomial α)

namespace Monomial

variable {α : Type} [Scalar α]

/-- The product of the variables at the given indices. -/
def product (x : List α) (indices : List Nat) : α :=
  indices.foldl (fun p i => p * x.getD i 0) 1

/-- The value at a point. -/
def value (monomial : Monomial α) (x : List α) : α :=
  monomial.coefficient * product x monomial.indices

/-- Add the gradient at a point. Each position contributes the product of all others. -/
def accumulate (monomial : Monomial α) (x gradient : List α) : List α :=
  (List.range monomial.indices.length).foldl
    (fun gradient k =>
      gradient.modify (monomial.indices.getD k 0)
        (· + monomial.coefficient * product x (monomial.indices.eraseIdx k)))
    gradient

end Monomial

namespace Polynomial

variable {α : Type} [Scalar α]

/-- The value at a point. -/
def value (p : Polynomial α) (x : List α) : α :=
  p.foldl (fun s monomial => s + monomial.value x) 0

/-- The gradient at a point. -/
def gradient (p : Polynomial α) (x : List α) : List α :=
  p.foldl (fun g monomial => monomial.accumulate x g) (Vec.zeros x.length)

end Polynomial

/-- An objective and constraints. -/
structure PolynomialProblem (α : Type) where
  objective : Polynomial α
  constraints : List (Polynomial α)
  /-- Every evaluation fails where the first entry of the point is above this limit. -/
  limit : Option α := none
deriving Inhabited

namespace PolynomialProblem

variable {α : Type} [Scalar α] (problem : PolynomialProblem α)

/-- A result, unless the point is beyond the limit. -/
def within {β : Type} (x : List α) (evaluation : Evaluation) (result : β) : Except (Error α) β :=
  match problem.limit, x.head? with
  | some limit, some first =>
      if limit < first then .error (.evaluationFailed evaluation) else .ok result
  | _, _ => .ok result

/-- The value of the objective. -/
def objectiveAt (x : List α) : α := Polynomial.value problem.objective x

/-- The gradient of the objective. -/
def gradientAt (x : List α) : List α := Polynomial.gradient problem.objective x

/-- The values of the constraints. -/
def constraintsAt (x : List α) : List α := problem.constraints.map (Polynomial.value · x)

/-- The Jacobian times a vector. -/
def jacobianProductAt (x v : List α) : List α :=
  problem.constraints.map fun p => Vec.dot (Polynomial.gradient p x) v

/-- The transposed Jacobian times a vector. -/
def adjointProductAt (x v : List α) : List α :=
  (problem.constraints.zip v).foldl
    (fun s (p, weight) => Vec.add s (Vec.scale weight (Polynomial.gradient p x)))
    (Vec.zeros x.length)

/-- The problem as a backend. -/
def toBackend (data : BackendData α) : Backend α where
  toBackendData := data
  objective x := problem.within x .objective (problem.objectiveAt x)
  gradient x := problem.within x .gradient (problem.gradientAt x)
  constraints x := problem.within x .constraints (problem.constraintsAt x)
  jacobianProduct x v := problem.within x .jacobianProduct (problem.jacobianProductAt x v)
  adjointProduct x v := problem.within x .adjointProduct (problem.adjointProductAt x v)

end PolynomialProblem

end CompositeModels
