/-
Module: CompositeModels.Expression.Chain
Purpose: Linear maps of one scalar, as chains of steps. A chain runs forward on a tangent and backward
  on a weight. Every step is its own transpose, so in exact arithmetic both directions multiply by the
  same slope. In rounded arithmetic the order of the steps decides where a product overflows.
Main exports: ChainStep, Chain, Chain.forward, Chain.backward
-/
import CompositeModels.Scalar

namespace CompositeModels

/-- One step of a chain: multiply by a factor, or add a multiple of the scalar to itself. -/
inductive ChainStep (α : Type) where
  | times (factor : α)
  | plusTimes (factor : α)
deriving Repr, Inhabited

/-- The effect of a step on a scalar. -/
def ChainStep.apply {α : Type} [Scalar α] : ChainStep α → α → α
  | .times factor, t => t * factor
  | .plusTimes factor, t => t + t * factor

/-- A linear map of one scalar, with its steps in forward order. -/
abbrev Chain (α : Type) := List (ChainStep α)

namespace Chain

variable {α : Type}

/-- The chain of a single factor. -/
def single (factor : α) : Chain α := [.times factor]

/-- Take a tangent through the chain. -/
def forward [Scalar α] (chain : Chain α) (tangent : α) : α :=
  chain.foldl (fun t step => step.apply t) tangent

/-- Take a weight back through the chain, from the last step to the first. -/
def backward [Scalar α] (chain : Chain α) (weight : α) : α :=
  chain.foldr (fun step w => step.apply w) weight

end Chain

end CompositeModels
