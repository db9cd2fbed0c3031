/-
Module: CompositeModels.InPlace
Purpose: The operations of an oracle as they work on the buffer of a caller. The buffer is a part of what
  a computation changes, so it has a content after a failure too: what was written before it. An
  operation of an oracle gives the final content instead, and says nothing about a buffer that it did
  not finish.
  A buffer has memory of its own. What is written into it does not show in the arguments of the
  operation, so an array that is handed in as an argument and as the buffer at once is not covered.
Main exports: Workspace, InPlace, InPlace.lift, InPlace.onBlocks, WriteHooks, Writer, Writer.gradient,
  Writer.objectiveGradient, Writer.constraints, Writer.objectiveConstraints, Writer.jacobianProduct,
  Writer.adjointProduct, Writer.project, Writer.proximal, Writer.proximalWithValue
-/
import CompositeModels.Oracle

namespace CompositeModels

/-- What an operation works on: the store, and the content of the buffer that it was given. -/
structure Workspace (α : Type) where
  store : Store α
  buffer : List α

/-- Computations that write into a buffer. A failed computation keeps what it wrote before it failed. -/
abbrev InPlace (α : Type) := EStateM (Error α) (Workspace α)

namespace InPlace

variable {α β : Type}

/-- Compute without the buffer. -/
def lift (program : Eval α β) : InPlace α β := fun workspace =>
  match program.run workspace.store with
  | .ok value later => .ok value { workspace with store := later }
  | .error cause later => .error cause { workspace with store := later }

/-- Check vector lengths. -/
def checkVectors (expected : Nat) (shapes : List Shape) : InPlace α Unit :=
  lift (Eval.checkVectors expected shapes)

/-- The shape of the buffer, for an operation that it is handed on to. -/
def shape : InPlace α Shape := return [(← get).buffer.length]

/-- Replace the content of the buffer by what `f` makes of it. -/
def change (f : List α → List α) : InPlace α Unit :=
  modify fun workspace => { workspace with buffer := f workspace.buffer }

/-- Write a vector into the buffer. -/
def write (content : List α) : InPlace α Unit := change fun _ => content

/-- Write zeros into the buffer. -/
def clear [Scalar α] : InPlace α Unit := change Vec.zeroed

/-- Write what a computation returns into the buffer. -/
def fill (program : Eval α (List α)) : InPlace α Unit := do
  let content ← lift program
  write content

/-- Split the buffer after its first `n` entries, and compute with one block and then with the other.
Both blocks are parts of the buffer, also when a computation fails. -/
def onBlocks (n : Nat) (first : InPlace α β) (second : InPlace α Unit) : InPlace α β :=
  fun workspace =>
    let rest := workspace.buffer.drop n
    match first.run ⟨workspace.store, workspace.buffer.take n⟩ with
    | .error cause later => .error cause ⟨later.store, later.buffer ++ rest⟩
    | .ok value later =>
        match second.run ⟨later.store, rest⟩ with
        | .ok () last => .ok value ⟨last.store, later.buffer ++ last.buffer⟩
        | .error cause last => .error cause ⟨last.store, later.buffer ++ last.buffer⟩

end InPlace

/-- The hooks of a model that take a buffer, as they write into it. The arguments were checked already.
A hook that writes only a part of the buffer, or nothing, leaves the rest as it was. -/
structure WriteHooks (α : Type) where
  /-- Write the gradient of `f` at `x`. -/
  gradient (x : List α) : InPlace α Unit
  /-- Write the gradient of `f` at `x`, and return `f(x)`. -/
  objectiveGradient (x : List α) : InPlace α α
  /-- Write `c(x)`. -/
  constraints (x : List α) : InPlace α Unit
  /-- Write `c(x)`, and return `f(x)`. -/
  objectiveConstraints (x : List α) : InPlace α α
  /-- Write the Jacobian of `c` at `x` times `v`. -/
  jacobianProduct (x v : List α) : InPlace α Unit
  /-- Write the transposed Jacobian of `c` at `x` times `v`. -/
  adjointProduct (x v : List α) : InPlace α Unit
  /-- Write the projection of `v` onto `S`. -/
  project (v : List α) : InPlace α Unit
  /-- Write the proximal point of `step * g` at `x`. -/
  proximal (x : List α) (step : α) : InPlace α Unit
  /-- Write the proximal point of `step * g` at `x`, and return the value of `g` there. -/
  proximalWithValue (x : List α) (step : α) : InPlace α α

namespace WriteHooks

variable {α β : Type}

/-- Evaluate the objective, then write the gradient. -/
def separateObjectiveGradient (objective : List α → Eval α α) (gradient : List α → InPlace α Unit)
    (x : List α) : InPlace α α := do
  let value ← InPlace.lift (objective x)
  gradient x
  return value

/-- Evaluate the objective, then write the constraints, if there are any. -/
def separateObjectiveConstraints (header : Header α) (objective : List α → Eval α α)
    (constraints : List α → InPlace α Unit) (x : List α) : InPlace α α := do
  let value ← InPlace.lift (objective x)
  if 0 < header.ncon then
    constraints x
  return value

/-- A model of this kind has no constraint set. -/
def withoutSet (kind : ModelKind) (_v : List α) : InPlace α Unit := throw (.noConstraintSet kind)

/-- A model of this kind has no proximable term. -/
def withoutTerm (kind : ModelKind) (_x : List α) (_step : α) : InPlace α β :=
  throw (.noProximableTerm kind)

end WriteHooks

/-- A problem whose operations can be asked to write into a buffer. -/
structure Writer (α : Type) extends Oracle α where
  writes : WriteHooks α

namespace Writer

variable {α : Type} [Scalar α] (writer : Writer α)

/-- Write the gradient of `f` at `x` into a buffer of the shape `out`. -/
def gradient (x : Tensor α) (out : Shape) : InPlace α Unit := do
  InPlace.checkVectors writer.header.nvar [x.shape, out]
  writer.writes.gradient x.entries

/-- Write the gradient of `f` at `x`, and return `f(x)`. -/
def objectiveGradient (x : Tensor α) (out : Shape) : InPlace α α := do
  InPlace.checkVectors writer.header.nvar [x.shape, out]
  writer.writes.objectiveGradient x.entries

/-- Write `c(x)`. -/
def constraints (x : Tensor α) (out : Shape) : InPlace α Unit := do
  InPlace.checkVectors writer.header.nvar [x.shape]
  InPlace.checkVectors writer.header.ncon [out]
  if 0 < writer.header.ncon then
    writer.writes.constraints x.entries

/-- Write `c(x)`, and return `f(x)`. -/
def objectiveConstraints (x : Tensor α) (out : Shape) : InPlace α α := do
  InPlace.checkVectors writer.header.nvar [x.shape]
  InPlace.checkVectors writer.header.ncon [out]
  writer.writes.objectiveConstraints x.entries

/-- Write the Jacobian of `c` at `x` times `v`. -/
def jacobianProduct (x v : Tensor α) (out : Shape) : InPlace α Unit := do
  InPlace.checkVectors writer.header.nvar [x.shape, v.shape]
  InPlace.checkVectors writer.header.ncon [out]
  if 0 < writer.header.ncon then
    writer.writes.jacobianProduct x.entries v.entries

/-- Write the transposed Jacobian of `c` at `x` times `v`, which is zero without constraints. -/
def adjointProduct (x v : Tensor α) (out : Shape) : InPlace α Unit := do
  InPlace.checkVectors writer.header.nvar [x.shape, out]
  InPlace.checkVectors writer.header.ncon [v.shape]
  if 0 < writer.header.ncon then
    writer.writes.adjointProduct x.entries v.entries
  else
    InPlace.clear

/-- Write the projection of `v` onto `S`. -/
def project (v : Tensor α) (out : Shape) : InPlace α Unit := do
  InPlace.checkVectors writer.header.ncon [v.shape, out]
  if 0 < writer.header.ncon then
    writer.writes.project v.entries

/-- Write the proximal point of `step * g` at `x`. -/
def proximal (x : Tensor α) (step : α) (out : Shape) : InPlace α Unit := do
  InPlace.checkVectors writer.header.nvar [x.shape, out]
  InPlace.lift (Oracle.requirePositiveStep step)
  writer.writes.proximal x.entries step

/-- Write the proximal point `z` of `step * g` at `x`, and return `g(z)`. -/
def proximalWithValue (x : Tensor α) (step : α) (out : Shape) : InPlace α α := do
  InPlace.checkVectors writer.header.nvar [x.shape, out]
  InPlace.lift (Oracle.requirePositiveStep step)
  writer.writes.proximalWithValue x.entries step

end Writer

end CompositeModels
