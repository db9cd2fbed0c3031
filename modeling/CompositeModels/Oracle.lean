/-
Module: CompositeModels.Oracle
Purpose: The uniform access to a problem

    optimize    f(x) + g(x)
    subject to  c(x) in S

  with `f` smooth, `g` proximable, `c` differentiable and `S` a closed set that can be projected onto.
  A model supplies hooks, which take vectors of the right lengths. Callers use the operations of the
  oracle, which check every array first. An operation that takes a buffer gives its final content.
  Arrays are values here, so a buffer has memory of its own. An array that is handed in as an argument
  and as the buffer at once is not covered: an operation that writes before it has read its arguments for
  the last time, as the gradient of an augmented Lagrangian does, would go on from what it wrote.
Main exports: Hooks, Oracle, Oracle.objective, Oracle.gradient, Oracle.objectiveGradient,
  Oracle.constraints, Oracle.objectiveConstraints, Oracle.jacobianProduct, Oracle.adjointProduct,
  Oracle.project, Oracle.distance, Oracle.proximal, Oracle.proximalWithValue
-/
import CompositeModels.Store

namespace CompositeModels

/-- What a model computes, for vectors that were checked already. An argument named `out` is the
content of the buffer that the result is written to. It shares no memory with the other arguments, which
keep their entries while the buffer is written. A hook that writes only a part of the buffer, or nothing,
leaves the rest as it was. -/
structure Hooks (α : Type) where
  /-- `f(x)`. -/
  objective (x : List α) : Eval α α
  /-- The gradient of `f` at `x`. -/
  gradient (x out : List α) : Eval α (List α)
  /-- `f(x)` and the gradient of `f` at `x`. -/
  objectiveGradient (x out : List α) : Eval α (α × List α)
  /-- `c(x)`. -/
  constraints (x out : List α) : Eval α (List α)
  /-- `f(x)` and `c(x)`. -/
  objectiveConstraints (x out : List α) : Eval α (α × List α)
  /-- The Jacobian of `c` at `x` times `v`. -/
  jacobianProduct (x v out : List α) : Eval α (List α)
  /-- The transposed Jacobian of `c` at `x` times `v`. -/
  adjointProduct (x v out : List α) : Eval α (List α)
  /-- The projection of `v` onto `S`. -/
  project (v out : List α) : Eval α (List α)
  /-- The distance from `v` to `S`. -/
  distance (v : List α) : Eval α α
  /-- The proximal point of `step * g` at `x`. -/
  proximal (x : List α) (step : α) (out : List α) : Eval α (List α)
  /-- The proximal point of `step * g` at `x`, after the value of `g` there. -/
  proximalWithValue (x : List α) (step : α) (out : List α) : Eval α (α × List α)

namespace Hooks

variable {α : Type}

/-- Evaluate the objective, then the gradient. -/
def separateObjectiveGradient (objective : List α → Eval α α)
    (gradient : List α → List α → Eval α (List α)) (x out : List α) : Eval α (α × List α) := do
  let value ← objective x
  let slope ← gradient x out
  return (value, slope)

/-- Evaluate the objective, then the constraints, if there are any. -/
def separateObjectiveConstraints (header : Header α) (objective : List α → Eval α α)
    (constraints : List α → List α → Eval α (List α)) (x out : List α) : Eval α (α × List α) := do
  let value ← objective x
  if 0 < header.ncon then
    let content ← constraints x out
    return (value, content)
  else
    return (value, out)

/-- The distance to the projection, which is computed in a buffer of its own. -/
def distanceToProjection [Scalar α] (project : List α → List α → Eval α (List α)) (v : List α) :
    Eval α α := do
  let nearest ← project v (Vec.zeroed v)
  return Vec.norm (Vec.sub nearest v)

/-- A model of this kind has no constraint set. -/
def withoutSet (kind : ModelKind) (_v _out : List α) : Eval α (List α) :=
  throw (.noConstraintSet kind)

/-- A model of this kind has no proximable term. -/
def withoutTerm {β : Type} (kind : ModelKind) (_x : List α) (_step : α) (_out : List α) : Eval α β :=
  throw (.noProximableTerm kind)

end Hooks

/-- A problem as its users see it. The buffers that they hand in are not among the other arguments. -/
structure Oracle (α : Type) where
  header : Header α
  kind : ModelKind
  hooks : Hooks α

namespace Oracle

variable {α : Type} [Scalar α]

/-- The given buffer, or a new one with `n` zeros. -/
def buffer (n : Nat) (out : Option (Tensor α)) : Tensor α := out.getD (.vector (Vec.zeros n))

/-- A proximal step must be above zero. -/
def requirePositiveStep (step : α) : Eval α Unit :=
  if 0 < step then pure () else throw (.nonpositiveStep step)

variable (oracle : Oracle α)

/-- Evaluate `f(x)`. -/
def objective (x : Tensor α) : Eval α α := do
  Eval.checkVectors oracle.header.nvar [x.shape]
  oracle.hooks.objective x.entries

/-- Evaluate the gradient of `f` at `x`. -/
def gradient (x : Tensor α) (out : Option (Tensor α)) : Eval α (List α) := do
  let out := buffer oracle.header.nvar out
  Eval.checkVectors oracle.header.nvar [x.shape, out.shape]
  oracle.hooks.gradient x.entries out.entries

/-- Evaluate `f(x)` and its gradient together. -/
def objectiveGradient (x : Tensor α) (out : Option (Tensor α)) : Eval α (α × List α) := do
  let out := buffer oracle.header.nvar out
  Eval.checkVectors oracle.header.nvar [x.shape, out.shape]
  oracle.hooks.objectiveGradient x.entries out.entries

/-- Evaluate `c(x)`. -/
def constraints (x : Tensor α) (out : Option (Tensor α)) : Eval α (List α) := do
  let out := buffer oracle.header.ncon out
  Eval.checkVectors oracle.header.nvar [x.shape]
  Eval.checkVectors oracle.header.ncon [out.shape]
  if 0 < oracle.header.ncon then
    oracle.hooks.constraints x.entries out.entries
  else
    return out.entries

/-- Evaluate `f(x)` and `c(x)` together. -/
def objectiveConstraints (x : Tensor α) (out : Option (Tensor α)) : Eval α (α × List α) := do
  let out := buffer oracle.header.ncon out
  Eval.checkVectors oracle.header.nvar [x.shape]
  Eval.checkVectors oracle.header.ncon [out.shape]
  oracle.hooks.objectiveConstraints x.entries out.entries

/-- Evaluate the Jacobian of `c` at `x` times `v`. -/
def jacobianProduct (x v : Tensor α) (out : Option (Tensor α)) : Eval α (List α) := do
  let out := buffer oracle.header.ncon out
  Eval.checkVectors oracle.header.nvar [x.shape, v.shape]
  Eval.checkVectors oracle.header.ncon [out.shape]
  if 0 < oracle.header.ncon then
    oracle.hooks.jacobianProduct x.entries v.entries out.entries
  else
    return out.entries

/-- Evaluate the transposed Jacobian of `c` at `x` times `v`, which is zero without constraints. -/
def adjointProduct (x v : Tensor α) (out : Option (Tensor α)) : Eval α (List α) := do
  let out := buffer oracle.header.nvar out
  Eval.checkVectors oracle.header.nvar [x.shape, out.shape]
  Eval.checkVectors oracle.header.ncon [v.shape]
  if 0 < oracle.header.ncon then
    oracle.hooks.adjointProduct x.entries v.entries out.entries
  else
    return Vec.zeroed out.entries

/-- Project `v` onto `S`. -/
def project (v : Tensor α) (out : Option (Tensor α)) : Eval α (List α) := do
  let out := buffer oracle.header.ncon out
  Eval.checkVectors oracle.header.ncon [v.shape, out.shape]
  if 0 < oracle.header.ncon then
    oracle.hooks.project v.entries out.entries
  else
    return out.entries

/-- The Euclidean distance from `v` to `S`, which is zero without constraints. -/
def distance (v : Tensor α) : Eval α α := do
  Eval.checkVectors oracle.header.ncon [v.shape]
  if 0 < oracle.header.ncon then
    oracle.hooks.distance v.entries
  else
    return 0

/-- Evaluate the proximal point of `step * g` at `x`. -/
def proximal (x : Tensor α) (step : α) (out : Option (Tensor α)) : Eval α (List α) := do
  let out := buffer oracle.header.nvar out
  Eval.checkVectors oracle.header.nvar [x.shape, out.shape]
  requirePositiveStep step
  oracle.hooks.proximal x.entries step out.entries

/-- Evaluate the proximal point `z` of `step * g` at `x`, and `g(z)`. -/
def proximalWithValue (x : Tensor α) (step : α) (out : Option (Tensor α)) :
    Eval α (α × List α) := do
  let out := buffer oracle.header.nvar out
  Eval.checkVectors oracle.header.nvar [x.shape, out.shape]
  requirePositiveStep step
  oracle.hooks.proximalWithValue x.entries step out.entries

end Oracle

end CompositeModels
