/-
Module: CompositeModels.Store
Purpose: Everything that changes while models are used, and the computations that may fail and change
  it. A model itself never changes: what an update, an evaluation or a closing leaves behind is found
  in the store under the model's serial number. An entry that is missing stands for the initial value,
  so the empty store is the state in which nothing has happened yet.
Main exports: Scratch, ResidualCache, Store, Eval
-/
import CompositeModels.Backend
import CompositeModels.Event
import CompositeModels.Header
import CompositeModels.Penalty
import CompositeModels.Table

namespace CompositeModels

/-- The buffers that an augmented Lagrangian reuses from one evaluation to the next. -/
structure Scratch (α : Type) where
  /-- Constraint values of the base. -/
  constraints : List α
  /-- Shifted constraint values, then their residual. -/
  residual : List α
  /-- The projected values, then the multiplier estimate. -/
  multipliers : List α
  /-- The transposed Jacobian times the multiplier estimate. -/
  pullback : List α
deriving Repr, Inhabited

/-- The buffers of a feasibility problem, and the point at which the residual was computed last. -/
structure ResidualCache (α : Type) where
  /-- Constraint values of the base. -/
  constraints : List α
  /-- The constraint values minus their projection. -/
  residual : List α
  /-- The point of the residual, once there is one. -/
  point : Option (List α)
deriving Repr, Inhabited

/-- All that changes while models are used. -/
structure Store (α : Type) where
  /-- The serial number of the next model or backend. -/
  next : Nat := 0
  /-- Backends whose data were replaced after models were built on them. -/
  revisions : Table (Backend α) := {}
  /-- Calls of the backends. -/
  tallies : Table Tally := {}
  /-- Penalty data that replaced the initial ones. -/
  penalties : Table (Penalty α) := {}
  /-- Buffers of augmented Lagrangians. -/
  scratch : Table (Scratch α) := {}
  /-- Buffers of feasibility problems. -/
  residuals : Table (ResidualCache α) := {}
  /-- Models that were closed. -/
  closed : Table Unit := {}
  /-- Recorded events, the oldest first. -/
  log : List (Event α) := []
deriving Inhabited

namespace Store

variable {α : Type}

/-- The calls of a backend so far. -/
def tally (store : Store α) (backend : Nat) : Tally := (store.tallies.get? backend).getD {}

/-- Replace the tally of a backend. -/
def setTally (store : Store α) (backend : Nat) (tally : Tally) : Store α :=
  { store with tallies := store.tallies.set backend tally }

/-- Whether a model was closed. -/
def isClosed (store : Store α) (model : Nat) : Bool := (store.closed.get? model).isSome

/-- Remember that a model is closed. -/
def markClosed (store : Store α) (model : Nat) : Store α :=
  { store with closed := store.closed.set model () }

/-- Record an event. -/
def record (store : Store α) (event : Event α) : Store α := { store with log := store.log ++ [event] }

/-- Hand out the recorded events and forget them. -/
def takeLog (store : Store α) : List (Event α) × Store α := (store.log, { store with log := [] })

end Store

/-- Computations that may fail and that change the store. A failed computation keeps the changes it
made before it failed. -/
abbrev Eval (α : Type) := EStateM (Error α) (Store α)

namespace Eval

variable {α β : Type}

/-- Go on with a result, or fail for its cause. -/
def ofExcept : Except (Error α) β → Eval α β
  | .ok value => pure value
  | .error cause => throw cause

/-- Check vector lengths as part of an evaluation. -/
def checkVectors (expected : Nat) (shapes : List Shape) : Eval α Unit :=
  ofExcept (CompositeModels.checkVectors expected shapes)

/-- A serial number that was not handed out before. -/
def freshSerial : Eval α Nat :=
  modifyGet fun store => (store.next, { store with next := store.next + 1 })

/-- Record an event. -/
def record (event : Event α) : Eval α Unit := modify (·.record event)

end Eval

end CompositeModels
