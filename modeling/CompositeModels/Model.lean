/-
Module: CompositeModels.Model
Purpose: Models as trees: a leaf, or a reformulation of a base model. Several models may have the same
  base, which they then share with everything that the store holds for it.
Main exports: Model, Model.oracle, Model.header, Model.kind
-/
import CompositeModels.Leaf.Backend
import CompositeModels.Leaf.Expression
import CompositeModels.Reformulation.AugmentedLagrangian
import CompositeModels.Reformulation.Feasibility
import CompositeModels.Reformulation.ProximalPoint
import CompositeModels.Reformulation.Slack
import CompositeModels.Reformulation.Tailored

namespace CompositeModels

/-- A leaf, or a reformulation of a base. -/
inductive Model (α : Type) where
  | backend (leaf : BackendLeaf α)
  | expression (leaf : ExpressionLeaf α)
  | slack (node : Wrapper α) (base : Model α)
  | proximalPoint (node : ProximalPoint α) (base : Model α)
  | augmentedLagrangian (node : AugmentedLagrangian α) (base : Model α)
  | feasibility (node : Feasibility α) (base : Model α)
  | tailored (node : Tailored α) (base : Model α)

namespace Model

variable {α : Type}

/-- The oracle of a model, built from the oracle of its base. -/
def oracle [Elementary α] : Model α → Oracle α
  | .backend leaf => leaf.oracle
  | .expression leaf => leaf.oracle
  | .slack node base => Slack.oracle node base.oracle
  | .proximalPoint node base => node.oracle base.oracle
  | .augmentedLagrangian node base => node.oracle base.oracle
  | .feasibility node base => node.oracle base.oracle
  | .tailored node base => node.oracle base.oracle

/-- The header of a model. -/
def header : Model α → Header α
  | .backend leaf => leaf.header
  | .expression leaf => leaf.header
  | .slack node _ => node.header
  | .proximalPoint node _ => node.header
  | .augmentedLagrangian node _ => node.header
  | .feasibility node _ => node.header
  | .tailored node _ => node.header

/-- The kind of a model. -/
def kind : Model α → ModelKind
  | .backend _ => .backend
  | .expression _ => .expression
  | .slack .. => .slack
  | .proximalPoint .. => .proximalPoint
  | .augmentedLagrangian .. => .augmentedLagrangian
  | .feasibility .. => .feasibility
  | .tailored .. => .tailored

/-- What a reformulation adds to its base, and the base. -/
def wrapped? : Model α → Option (Wrapper α × Model α)
  | .backend _ | .expression _ => none
  | .slack node base => some (node, base)
  | .proximalPoint node base => some (node.toWrapper, base)
  | .augmentedLagrangian node base => some (node.toWrapper, base)
  | .feasibility node base => some (node.toWrapper, base)
  | .tailored node base => some (node.toWrapper, base)

@[simp] theorem oracle_header [Elementary α] (model : Model α) : model.oracle.header = model.header := by
  cases model <;> rfl

end Model

end CompositeModels
