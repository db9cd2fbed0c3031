/-
Module: CompositeModels.Proofs.Realization.Smooth
Purpose: The operations of a model about `f` answer as its meaning says, whatever happened before. They
  do so for every stack whose feasibility problems sit on a function of the point, since these are the
  only models that keep anything.
Main exports: Model.Repeatable, Slack.realizesSmooth, Tailored.realizesSmooth, Model.realizesSmooth
-/
import CompositeModels.Proofs.Realization.AugmentedLagrangian
import CompositeModels.Proofs.Realization.Feasibility

namespace CompositeModels

open Eval (Answers AnswersAt)

variable {α : Type}

/-- The smooth part of a model answers alike whenever it is asked the same. A feasibility problem on the
way to `f` needs a base that is a function of the point. -/
def Model.Repeatable [Elementary α] : Model α → Prop
  | .backend _ | .expression _ | .proximalPoint .. => True
  | .slack _ base | .augmentedLagrangian _ base | .tailored _ base => base.Repeatable
  | .feasibility _ base => base.PointFunction

/-- Where equal scalars are the same scalar, every model is repeatable. -/
theorem Model.repeatable [Elementary α] [LawfulBEq α] (model : Model α) : model.Repeatable := by
  induction model with
  | backend leaf => trivial
  | expression leaf => trivial
  | slack node base ih => exact ih
  | proximalPoint node base => trivial
  | augmentedLagrangian node base ih => exact ih
  | feasibility node base => exact base.pointFunction
  | tailored node base ih => exact ih

/-! ### Leaves -/

theorem BackendLeaf.realizesSmooth [Elementary α] {leaf : BackendLeaf α} {models : List (Model α)}
    {penalties : Table (Penalty α)} (family : Family models)
    (regular : (Model.backend leaf).Regular) {x : List α} (hx : x.length = leaf.header.nvar) :
    leaf.hooks.RealizesSmoothAt (Store.Ready models penalties) True leaf.smoothMeaning x := by
  rcases regular with ⟨fills, _, _⟩
  have steady : Store.Steady models penalties (Store.Ready models penalties) :=
    Store.Ready.steady family
  have objective : Answers (Store.Ready models penalties) True
      (leaf.call .objective (·.objective x)) (fun _ => True) (leaf.backend.objective x) :=
    answers_call steady .objective fun _ _ => trivial
  have gradient : Answers (Store.Ready models penalties) True (leaf.call .gradient (·.gradient x))
      (·.length = leaf.header.nvar) (leaf.backend.gradient x) :=
    answers_call steady .gradient fun _ same => fills.gradient hx same
  exact {
    objective := objective
    gradient := fun _ => gradient
    objectiveGradient := by
      intro out _ store ready
      apply (objective store ready).bind
      intro value later _ ready
      apply (gradient later ready).bind
      intro slope next length ready
      exact .pure ready length }

theorem ExpressionLeaf.realizesSmooth [Elementary α] {leaf : ExpressionLeaf α}
    {valid : Store α → Prop} {x : List α} (hx : x.length = leaf.header.nvar) :
    leaf.hooks.RealizesSmoothAt valid True leaf.smoothMeaning x where
  objective := fun _ holds => .pure holds trivial
  gradient := fun _ _ holds => .pure holds ((Expression.length_gradient _ _).trans hx)
  objectiveGradient := fun _ _ holds => .pure holds ((Expression.length_gradient _ _).trans hx)

/-! ### Reformulations -/

section Reformulations

variable [Scalar α] {base : Oracle α} {restriction : ConstraintMeaning α} {meaning : SmoothMeaning α}
  {valid : Store α → Prop} {certain : Prop} {x : List α}

theorem Slack.realizesSmooth {wrapper : Wrapper α}
    (realizes : base.RealizesSmoothAt valid certain restriction meaning
      (.vector (x.take meaning.nvar)))
    (nvar : meaning.nvar ≤ wrapper.header.nvar) (hx : x.length = wrapper.header.nvar) :
    (Slack.hooks wrapper.header base).RealizesSmoothAt valid certain
      (Slack.smoothMeaning wrapper meaning) x where
  objective := by
    simp only [hooks, baseBlock, smoothMeaning, ← realizes.nvar]
    exact realizes.objective
  gradient := by
    intro out hout store holds
    change out.length = wrapper.header.nvar at hout
    have room : (out.take meaning.nvar).length = meaning.nvar := by simp; omega
    have same : Vec.zeroed (out.drop meaning.nvar) = Vec.zeroed (x.drop meaning.nvar) := by
      simp [Vec.zeroed_eq_zeros, hx, hout]
    have answers := realizes.gradient (some (.vector (out.take meaning.nvar))) store holds
    rw [SmoothMeaning.gradientAt_some room] at answers
    simp only [hooks, gradient, baseBlock, slackBlock, smoothMeaning, ← realizes.nvar, same]
    apply answers.bind
    intro slope later fills holds
    have length := fills.length
    exact .pure holds (by simp; omega)
  objectiveGradient := by
    intro out hout store holds
    change out.length = wrapper.header.nvar at hout
    have room : (out.take meaning.nvar).length = meaning.nvar := by simp; omega
    have same : Vec.zeroed (out.drop meaning.nvar) = Vec.zeroed (x.drop meaning.nvar) := by
      simp [Vec.zeroed_eq_zeros, hx, hout]
    have answers := realizes.objectiveGradient (some (.vector (out.take meaning.nvar))) store holds
    rw [SmoothMeaning.objectiveGradientAt_some room] at answers
    simp only [hooks, objectiveGradient, baseBlock, slackBlock, smoothMeaning, ← realizes.nvar, same]
    apply answers.bind
    rintro ⟨value, slope⟩ later fills holds
    have length : slope.length = meaning.nvar := fills.length
    exact .pure holds (by simp; omega)

theorem ProximalPoint.realizesSmooth {node : ProximalPoint α}
    (anchor : node.anchor.length = node.header.nvar) (hx : x.length = node.header.nvar) :
    (node.hooks base).RealizesSmoothAt valid certain node.smoothMeaning x := by
  have slope : (node.gradient x).length = node.header.nvar := by simp [gradient, hx, anchor]
  exact {
    objective := fun _ holds => .pure holds trivial
    gradient := fun _ _ holds => .pure holds slope
    objectiveGradient := fun _ _ holds => .pure holds slope }

theorem Tailored.realizesSmooth {node : Tailored α}
    (realizes : base.RealizesSmoothAt valid certain restriction meaning (.vector x)) :
    (node.hooks base).RealizesSmoothAt valid certain (node.smoothMeaning meaning) x := by
  have gradients : ∀ {out : List α}, out.length = node.header.nvar →
      Answers valid certain (base.gradient (.vector x) (some (.vector out)))
        (·.length = node.header.nvar) (meaning.gradientAt (.vector x) node.pointBuffer) := by
    intro out hout store holds
    rw [pointBuffer, SmoothMeaning.gradientAt_congr (hout.trans (Vec.length_zeros _).symm)]
    exact (realizes.gradient _ store holds).mono id fun _ fills => fills.length_out.trans hout
  exact {
    objective := realizes.objective
    gradient := gradients
    objectiveGradient := by
      intro out hout store holds
      apply (realizes.objective store holds).bind
      intro value later _ holds
      apply (gradients hout later holds).bind
      intro slope next length holds
      exact .pure holds length }

end Reformulations

/-- Every model evaluates the objective and the constraints together by asking for one after the other. -/
theorem Model.objectiveConstraints_hooks [Elementary α] (model : Model α) :
    model.oracle.hooks.objectiveConstraints =
      Hooks.separateObjectiveConstraints model.oracle.header model.oracle.hooks.objective
        model.oracle.hooks.constraints := by
  cases model <;> rfl

section Models

variable [Elementary α] {models : List (Model α)} {penalties : Table (Penalty α)} {model : Model α}

/-- Every model of a family answers about `f` as a meaning says, if its hooks do. -/
theorem Model.realizesSmooth_oracle (family : Family models) (member : model ∈ models)
    {valid : Store α → Prop} (steady : Store.Steady models penalties valid) {certain : Prop}
    {meaning : SmoothMeaning α} (nvar : meaning.nvar = model.header.nvar) {x : Tensor α}
    (hooks : x.entries.length = model.header.nvar →
      model.oracle.hooks.RealizesSmoothAt valid certain meaning x.entries) :
    model.oracle.RealizesSmoothAt valid certain model.constraintMeaning meaning x :=
  Hooks.RealizesSmoothAt.oracle (fun length => hooks (length.trans nvar))
    (Model.realizesConstraints_hooks family steady member) model.objectiveConstraints_hooks
    (by simpa using nvar) (by simpa using nvar.symm) (by simp)

/-- Every repeatable model of a family answers about `f` as its meaning says. -/
theorem Model.realizesSmooth (family : Family models) (member : model ∈ models) (x : Tensor α) :
    model.oracle.RealizesSmoothAt (Store.Ready models penalties) model.Repeatable
      model.constraintMeaning (model.smoothMeaning penalties) x := by
  have steady : Store.Steady models penalties (Store.Ready models penalties) :=
    Store.Ready.steady family
  induction model generalizing x with
  | backend leaf =>
      refine Model.realizesSmooth_oracle family member steady rfl fun hx => ?_
      exact BackendLeaf.realizesSmooth family (family.regular member) hx
  | expression leaf =>
      refine Model.realizesSmooth_oracle family member steady rfl fun hx => ?_
      exact ExpressionLeaf.realizesSmooth hx
  | slack node base ih =>
      rcases family.regular member with ⟨nvar, _⟩
      refine Model.realizesSmooth_oracle family member steady rfl fun hx => ?_
      exact Slack.realizesSmooth (ih (family.bases member rfl) _) (by simp [nvar]) hx
  | proximalPoint node base =>
      rcases family.regular member with ⟨nvar, _, anchor⟩
      refine Model.realizesSmooth_oracle family member steady rfl fun hx => ?_
      exact ProximalPoint.realizesSmooth (anchor.trans nvar.symm) hx
  | augmentedLagrangian node base ih =>
      refine Model.realizesSmooth_oracle family member steady rfl fun _ => ?_
      exact AugmentedLagrangian.realizesSmooth family steady member
        (ih (family.bases member rfl) _)
  | feasibility node base =>
      refine Model.realizesSmooth_oracle family member steady rfl fun hx => ?_
      exact Feasibility.realizesSmooth family steady member hx
        (Feasibility.answers_residual family member) rfl
  | tailored node base ih =>
      refine Model.realizesSmooth_oracle family member steady rfl fun _ => ?_
      exact Tailored.realizesSmooth (ih (family.bases member rfl) _)

end Models

end CompositeModels
