/-
Module: CompositeModels.Proofs.Realization.Term
Purpose: The operations of a model about `g` answer as its meaning says, whatever happened before.
Main exports: Slack.realizesTerm, AugmentedLagrangian.realizesTerm, Feasibility.realizesTerm,
  Model.realizesTerm
-/
import CompositeModels.Proofs.Realization.Constraints

namespace CompositeModels

open Eval (Answers AnswersAt)

variable {α : Type}

/-! ### Leaves -/

theorem BackendLeaf.realizesTerm [Scalar α] {leaf : BackendLeaf α} {valid : Store α → Prop}
    (boxLength : leaf.variableBox.length = leaf.header.nvar) :
    leaf.hooks.RealizesTerm valid leaf.termMeaning := by
  have clamps : ∀ {x : List α}, x.length = leaf.header.nvar →
      (leaf.variableBox.clamp x).length = leaf.header.nvar := by
    intro x length
    simp [Box.clamp, boxLength, length]
  exact {
    proximal := fun hx _ _ holds => .pure holds (clamps hx)
    proximalWithValue := fun hx _ _ holds => .pure holds (clamps hx) }

theorem ExpressionLeaf.realizesTerm [Elementary α] {leaf : ExpressionLeaf α}
    {valid : Store α → Prop} : leaf.hooks.RealizesTerm valid leaf.termMeaning where
  proximal := fun _ _ _ holds => .throw holds
  proximalWithValue := fun _ _ _ holds => .throw holds

/-! ### Reformulations -/

section Reformulations

variable [Scalar α] {base : Oracle α} {meaning : TermMeaning α} {restriction : ConstraintMeaning α}
  {valid : Store α → Prop}

/-- Models that hand their points on to the base hand on its answers. -/
private theorem answers_proximal (realizes : base.RealizesTerm valid meaning) {x out : List α}
    {step : α} {n : Nat} (nvar : n = meaning.nvar) (hout : out.length = n) :
    Answers valid True (base.proximal (.vector x) step (some (.vector out))) (·.length = n)
      (meaning.proximalAt (.vector x) step none) := by
  intro store holds
  rw [← TermMeaning.proximalAt_some (hout.trans nvar)]
  exact (realizes.proximal _ _ _ store holds).mono id fun _ fills => fills.length.trans nvar.symm

private theorem answers_proximalWithValue (realizes : base.RealizesTerm valid meaning)
    {x out : List α} {step : α} {n : Nat} (nvar : n = meaning.nvar) (hout : out.length = n) :
    Answers valid True (base.proximalWithValue (.vector x) step (some (.vector out)))
      (·.2.length = n) (meaning.proximalWithValueAt (.vector x) step none) := by
  intro store holds
  rw [← TermMeaning.proximalWithValueAt_some (hout.trans nvar)]
  exact (realizes.proximalWithValue _ _ _ store holds).mono id fun _ fills =>
    fills.length.trans nvar.symm

theorem Slack.realizesTerm {wrapper : Wrapper α} (realizes : base.RealizesTerm valid meaning)
    (constraints : base.RealizesConstraints valid restriction)
    (nvar : wrapper.header.nvar = restriction.nvar + restriction.ncon) :
    (Slack.hooks wrapper.header base).RealizesTerm valid
      (Slack.termMeaning wrapper restriction meaning) := by
  have sameNvar : base.header.nvar = meaning.nvar := realizes.nvar.symm
  have projects : ∀ {v out : List α}, out.length = restriction.ncon →
      Answers valid True (base.project (.vector v) (some (.vector out)))
        (·.length = restriction.ncon) (restriction.projectAt (.vector v) none) := by
    intro v out hout store holds
    rw [← ConstraintMeaning.projectAt_some hout]
    exact (constraints.project _ _ store holds).mono id fun _ fills => fills.length
  exact {
    proximal := by
      intro x step out hx hout store holds
      change out.length = wrapper.header.nvar at hout
      simp only [hooks, proximal, baseBlock, slackBlock, termMeaning, constraints.nvar]
      refine (answers_proximal realizes sameNvar ?_ store holds).bind fun point later length holds => ?_
      · simp [← constraints.nvar]
        omega
      refine (projects ?_ later holds).bind fun projected last lengthProjected holds => ?_
      · simp [← constraints.nvar]
        omega
      exact .pure holds (by
        simp [lengthProjected, length, ← constraints.nvar]
        omega)
    proximalWithValue := by
      intro x step out hx hout store holds
      change out.length = wrapper.header.nvar at hout
      simp only [hooks, proximalWithValue, baseBlock, slackBlock, termMeaning, constraints.nvar]
      refine (answers_proximalWithValue realizes sameNvar ?_ store holds).bind
        fun answer later length holds => ?_
      · simp [← constraints.nvar]
        omega
      refine (projects ?_ later holds).bind fun projected last lengthProjected holds => ?_
      · simp [← constraints.nvar]
        omega
      exact .pure holds (by
        simp [lengthProjected, length, ← constraints.nvar]
        omega) }

theorem ProximalPoint.realizesTerm {node : ProximalPoint α}
    (realizes : base.RealizesTerm valid meaning) (nvar : node.header.nvar = meaning.nvar) :
    (node.hooks base).RealizesTerm valid (node.termMeaning meaning) where
  proximal := fun _ hout => answers_proximal realizes nvar hout
  proximalWithValue := fun _ hout => answers_proximalWithValue realizes nvar hout

theorem AugmentedLagrangian.realizesTerm {node : AugmentedLagrangian α}
    (realizes : base.RealizesTerm valid meaning) (nvar : node.header.nvar = meaning.nvar) :
    (node.hooks base).RealizesTerm valid (node.termMeaning meaning) where
  proximal := fun _ hout => answers_proximal realizes nvar hout
  proximalWithValue := fun _ hout => answers_proximalWithValue realizes nvar hout

theorem Feasibility.realizesTerm {node : Feasibility α}
    (realizes : base.RealizesTerm valid meaning) (nvar : node.header.nvar = meaning.nvar) :
    (node.hooks base).RealizesTerm valid (node.termMeaning meaning) where
  proximal := by
    intro x step out hx hout
    simp only [hooks, proximal, termMeaning]
    split
    · exact answers_proximal realizes nvar hout
    · exact fun store holds => .pure holds hx
  proximalWithValue := by
    intro x step out hx hout
    simp only [hooks, proximalWithValue, termMeaning]
    split
    · exact answers_proximalWithValue realizes nvar hout
    · exact fun store holds => .pure holds hx

theorem Tailored.realizesTerm {node : Tailored α}
    (keeps : ∀ term, node.term = some term → term.KeepsLength) :
    (node.hooks base).RealizesTerm valid node.termMeaning where
  proximal := by
    intro x step out hx _ store holds
    simp only [hooks, proximal, termMeaning]
    cases chosen : node.term with
    | none => exact .throw holds
    | some term => exact .pure holds ((keeps term chosen x step).trans hx)
  proximalWithValue := by
    intro x step out hx _ store holds
    simp only [hooks, proximalWithValue, termMeaning]
    cases chosen : node.term with
    | none => exact .throw holds
    | some term => exact .pure holds ((keeps term chosen x step).trans hx)

end Reformulations

/-- Every model of a family answers about `g` as its meaning says. -/
theorem Model.realizesTerm [Elementary α] {models : List (Model α)} {penalties : Table (Penalty α)}
    (family : Family models) {model : Model α} (member : model ∈ models) :
    model.oracle.RealizesTerm (Store.Ready models penalties) model.termMeaning := by
  induction model with
  | backend leaf =>
      rcases family.regular member with ⟨_, boxLength, _⟩
      exact BackendLeaf.realizesTerm boxLength |>.oracle rfl
  | expression leaf => exact ExpressionLeaf.realizesTerm |>.oracle rfl
  | slack node base ih =>
      rcases family.regular member with ⟨nvar, _⟩
      have baseMember := family.bases member rfl
      refine Slack.realizesTerm (ih baseMember) (Model.realizesConstraints family baseMember) ?_
        |>.oracle rfl
      simpa using nvar
  | proximalPoint node base ih =>
      rcases family.regular member with ⟨nvar, _⟩
      refine ProximalPoint.realizesTerm (ih (family.bases member rfl)) ?_ |>.oracle rfl
      simpa using nvar
  | augmentedLagrangian node base ih =>
      rcases family.regular member with ⟨nvar, _⟩
      refine AugmentedLagrangian.realizesTerm (ih (family.bases member rfl)) ?_ |>.oracle rfl
      simpa using nvar
  | feasibility node base ih =>
      rcases family.regular member with ⟨nvar, _⟩
      refine Feasibility.realizesTerm (ih (family.bases member rfl)) ?_ |>.oracle rfl
      simpa using nvar
  | tailored node base =>
      rcases family.regular member with ⟨_, keeps⟩
      exact Tailored.realizesTerm keeps |>.oracle rfl

end CompositeModels
