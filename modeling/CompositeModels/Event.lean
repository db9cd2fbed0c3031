/-
Module: CompositeModels.Event
Purpose: What is recorded when models are built, updated and closed. The wording of an event is in
  CompositeModels.Event.Message.
Main exports: Severity, Event
-/

namespace CompositeModels

/-- How much attention an event deserves. -/
inductive Severity where
  | debug
  | info
  | error
deriving Repr, Inhabited, DecidableEq

/-- Something worth recording. -/
inductive Event (α : Type) where
  /-- A leaf was built on a backend. -/
  | backendWrapped (backend : String) (nvar ncon : Nat)
  /-- A leaf was built from expressions. -/
  | expressionsBuilt (name : String) (nvar ncon : Nat)
  /-- A slack reformulation was built. -/
  | slacksAdded (base : String) (ncon nvarBefore nvarAfter : Nat)
  /-- A proximal-point subproblem was built. -/
  | proximalPointBuilt (base : String) (step : α)
  /-- An augmented Lagrangian was built. -/
  | augmentedLagrangianBuilt (base : String) (ncon : Nat) (smallestPenalty largestPenalty : α)
  /-- The parameters of an augmented Lagrangian were replaced. -/
  | augmentedLagrangianUpdated (name : String) (largestPenalty largestMultiplier : α)
  /-- A feasibility problem was built. -/
  | feasibilityBuilt (base loss : String) (ncon : Nat) (withProximalTerm : Bool)
  /-- A reformulation that owns its base was closed. -/
  | baseReleased (name base : String)
  /-- A leaf that owns its backend was closed. -/
  | backendReleased (backend : String)
  /-- A termination record was refused for its status. -/
  | statusRefused (status : String)
deriving Repr, Inhabited

namespace Event

/-- Building is informative, updating and closing are for debugging, a refusal is an error. -/
def severity {α : Type} : Event α → Severity
  | .backendWrapped .. | .expressionsBuilt .. | .slacksAdded .. | .proximalPointBuilt ..
  | .augmentedLagrangianBuilt .. | .feasibilityBuilt .. => .info
  | .augmentedLagrangianUpdated .. | .baseReleased .. | .backendReleased .. => .debug
  | .statusRefused .. => .error

end Event

end CompositeModels
