/-
Module: CompositeModels.Proofs.Realization.Constraints
Purpose: The operations of a model about `c` and `S` answer as its meaning says, whatever happened
  before. The induction is on the stack: each reformulation realizes its meaning if its base does.
Main exports: BackendLeaf.answers_call, Slack.realizesConstraints, ProximalPoint.realizesConstraints,
  Tailored.realizesConstraints, Model.realizesConstraints
-/
import CompositeModels.Proofs.Realization
import CompositeModels.Proofs.Regular

namespace CompositeModels

open Eval (Answers AnswersAt)

variable {α : Type}

/-! ### Parts that several models share -/

/-- A distance that is computed by projecting is that of the projection. -/
theorem Hooks.answers_distanceToProjection [Scalar α] {valid : Store α → Prop} {good : List α → Prop}
    {project : List α → List α → Eval α (List α)} {projectMeaning : List α → Except (Error α) (List α)}
    {v : List α}
    (projects : Answers valid True (project v (Vec.zeroed v)) good (projectMeaning v)) :
    Answers valid True (Hooks.distanceToProjection project v) (fun _ => True)
      (ConstraintMeaning.distanceToProjection projectMeaning v) := by
  intro store holds
  apply (projects store holds).bind
  intro nearest later _ holds
  exact .pure holds trivial

/-- Where the constraint vector is empty, there is nothing to realize. -/
theorem Unconstrained.realizesConstraints [Scalar α] {wrapper : Wrapper α} {kind : ModelKind}
    {hooks : Hooks α} {valid : Store α → Prop} (ncon : wrapper.header.ncon = 0) :
    hooks.RealizesConstraints valid (Unconstrained.constraintMeaning wrapper kind) := by
  have empty : ¬ 0 < (Unconstrained.constraintMeaning wrapper kind).ncon := by
    show ¬ 0 < wrapper.header.ncon
    omega
  constructor <;> intros <;> contradiction

/-! ### Leaves -/

namespace BackendLeaf

variable [Elementary α] {leaf : BackendLeaf α} {models : List (Model α)}
  {penalties : Table (Penalty α)} {valid : Store α → Prop}

/-- A call is counted and answered by the backend that the leaf was built on. -/
theorem answers_call (steady : Store.Steady models penalties valid) {β : Type}
    (evaluation : Evaluation) {evaluate : Backend α → Except (Error α) β} {good : β → Prop}
    (isGood : ∀ value, evaluate leaf.backend = .ok value → good value) :
    Answers valid True (leaf.call evaluation evaluate) good (evaluate leaf.backend) := by
  intro store holds
  have current : store.currentBackend leaf.backendSerial leaf.backend = leaf.backend := by
    rw [Store.currentBackend, (steady.ready holds).unrevised]
    rfl
  refine .get_bind (.set_bind ?_)
  rw [current]
  exact .ofExcept (steady.setTally _ _ holds) isGood

theorem realizesConstraints (steady : Store.Steady models penalties valid)
    (regular : (Model.backend leaf).Regular) :
    leaf.hooks.RealizesConstraints valid leaf.constraintMeaning := by
  rcases regular with ⟨fills, _, boxLength⟩
  have projects : ∀ {v : List α}, v.length = leaf.header.ncon →
      Answers valid True (pure (leaf.constraintBox.clamp v))
        (·.length = leaf.header.ncon) (.ok (leaf.constraintBox.clamp v)) := by
    intro v length store holds
    exact .pure holds (by simp [Box.clamp, boxLength, length])
  exact {
    constraints := by
      intro x out _ hx _
      simp only [hooks, constraintMeaning]
      exact answers_call steady .constraints fun _ same => fills.constraints hx same
    jacobianProduct := by
      intro x v out _ hx hv _
      simp only [hooks, constraintMeaning]
      exact answers_call steady .jacobianProduct fun _ same => fills.jacobianProduct hx hv same
    adjointProduct := by
      intro x v out _ hx hv _
      simp only [hooks, constraintMeaning]
      exact answers_call steady .adjointProduct fun _ same => fills.adjointProduct hx hv same
    project := fun _ hv _ => projects hv
    distance := by
      intro v _ hv
      simp only [hooks, constraintMeaning]
      exact Hooks.answers_distanceToProjection (projects hv) }

end BackendLeaf

namespace Expression

variable [Elementary α]

@[simp] theorem length_accumulate (x : List α) (e : Expression α) :
    ∀ (weight : α) (gradient : List α),
      (e.accumulate x weight gradient).length = gradient.length := by
  induction e with
  | constant => intros; rfl
  | entry => intros; simp [accumulate]
  | binary operator left right leftIH rightIH =>
      intro weight gradient
      simp [accumulate, leftIH, rightIH]
  | power operand exponent ih =>
      intro weight gradient
      rw [accumulate]
      split
      · rfl
      · exact ih _ _
  | unary operator operand ih =>
      intro weight gradient
      exact ih _ _

@[simp] theorem length_gradient (e : Expression α) (x : List α) :
    (e.gradient x).length = x.length := by
  simp [gradient]

end Expression

namespace ExpressionLeaf

variable [Elementary α] {leaf : ExpressionLeaf α}

@[simp] theorem length_pullback (x w : List α) : (leaf.pullback x w).length = x.length := by
  unfold pullback
  refine List.foldlRecOn (motive := fun gradient : List α => gradient.length = x.length) _ _ ?_ ?_
  · exact Vec.length_zeros _
  · rintro gradient length ⟨e, weight⟩ _
    exact (e.length_accumulate x weight gradient).trans length

theorem realizesConstraints {valid : Store α → Prop}
    (ncon : leaf.constraints.length = leaf.header.ncon) :
    leaf.hooks.RealizesConstraints valid leaf.constraintMeaning where
  constraints := fun _ _ _ _ holds => .pure holds (by simp [values, ncon, constraintMeaning])
  jacobianProduct := fun _ _ _ _ _ holds =>
    .pure holds (by simp [pushforward, ncon, constraintMeaning])
  adjointProduct := fun _ hx _ _ _ holds => .pure holds (by simpa using hx)
  project := fun _ _ _ _ holds => .throw holds
  distance := fun _ _ _ holds => .throw holds

end ExpressionLeaf

/-! ### Reformulations -/

section Reformulations

variable [Scalar α] {base : Oracle α} {meaning : ConstraintMeaning α} {valid : Store α → Prop}

theorem Slack.realizesConstraints {wrapper : Wrapper α}
    (realizes : base.RealizesConstraints valid meaning)
    (nvar : wrapper.header.nvar = meaning.nvar + meaning.ncon)
    (ncon : wrapper.header.ncon = meaning.ncon) :
    (Slack.hooks wrapper.header base).RealizesConstraints valid
      (Slack.constraintMeaning wrapper meaning) where
  constraints := by
    intro x out _ hx hout store holds
    change x.length = wrapper.header.nvar at hx
    change out.length = wrapper.header.ncon at hout
    have answers := realizes.constraints (.vector (x.take base.header.nvar)) (some (.vector out))
    rw [ConstraintMeaning.constraintsAt_some (hout.trans ncon), ← realizes.nvar] at answers
    simp only [Slack.hooks, Slack.constraints, Slack.baseBlock, Slack.slackBlock,
      Slack.constraintMeaning, ← realizes.nvar]
    apply (answers store holds).bind
    intro content later fills holds
    have length := fills.length
    exact .pure holds (by simp; omega)
  jacobianProduct := by
    intro x v out _ hx hv hout store holds
    change v.length = wrapper.header.nvar at hv
    change out.length = wrapper.header.ncon at hout
    have answers := realizes.jacobianProduct (.vector (x.take base.header.nvar))
      (.vector (v.take base.header.nvar)) (some (.vector out))
    rw [ConstraintMeaning.jacobianProductAt_some (hout.trans ncon), ← realizes.nvar] at answers
    simp only [Slack.hooks, Slack.jacobianProduct, Slack.baseBlock, Slack.slackBlock,
      Slack.constraintMeaning, ← realizes.nvar]
    apply (answers store holds).bind
    intro content later fills holds
    have length := fills.length
    exact .pure holds (by simp; omega)
  adjointProduct := by
    intro x v out _ hx hv hout store holds
    change v.length = wrapper.header.ncon at hv
    change out.length = wrapper.header.nvar at hout
    have room : (out.take meaning.nvar).length = meaning.nvar := by simp; omega
    have answers := realizes.adjointProduct (.vector (x.take base.header.nvar)) (.vector v)
      (some (.vector (out.take base.header.nvar)))
    rw [← realizes.nvar, ConstraintMeaning.adjointProductAt_some room] at answers
    simp only [Slack.hooks, Slack.adjointProduct, Slack.baseBlock, Slack.constraintMeaning,
      ← realizes.nvar]
    apply (answers store holds).bind
    intro content later fills holds
    have length := fills.length
    exact .pure holds (by simp; omega)
  project := by
    intro v out _ hv hout store holds
    have same : Vec.zeroed out = Vec.zeroed v := by
      rw [Vec.zeroed_eq_zeros, Vec.zeroed_eq_zeros, hv, hout]
    simp only [Slack.hooks, Slack.constraintMeaning, same]
    exact .pure holds ((Vec.length_zeroed v).trans hv)
  distance := fun _ _ _ holds => .pure holds trivial

theorem ProximalPoint.realizesConstraints {node : ProximalPoint α}
    (realizes : base.RealizesConstraints valid meaning)
    (nvar : node.header.nvar = meaning.nvar) (ncon : node.header.ncon = meaning.ncon) :
    (node.hooks base).RealizesConstraints valid (node.constraintMeaning meaning) := by
  have projects : ∀ {v out : List α}, out.length = node.header.ncon →
      Answers valid True (base.project (.vector v) (some (.vector out)))
        (·.length = node.header.ncon) (meaning.projectAt (.vector v) none) := by
    intro v out hout store holds
    rw [← ConstraintMeaning.projectAt_some (hout.trans ncon)]
    exact (realizes.project _ _ store holds).mono id fun _ fills => fills.length.trans ncon.symm
  exact {
    constraints := by
      intro x out _ _ hout store holds
      change out.length = node.header.ncon at hout
      simp only [hooks, constraintMeaning]
      rw [← ConstraintMeaning.constraintsAt_some (hout.trans ncon)]
      exact (realizes.constraints _ _ store holds).mono id fun _ fills => fills.length.trans ncon.symm
    jacobianProduct := by
      intro x v out _ _ _ hout store holds
      change out.length = node.header.ncon at hout
      simp only [hooks, constraintMeaning]
      rw [← ConstraintMeaning.jacobianProductAt_some (hout.trans ncon)]
      exact (realizes.jacobianProduct _ _ _ store holds).mono id fun _ fills =>
        fills.length.trans ncon.symm
    adjointProduct := by
      intro x v out _ _ _ hout store holds
      change out.length = node.header.nvar at hout
      simp only [hooks, constraintMeaning]
      rw [← ConstraintMeaning.adjointProductAt_some (hout.trans nvar)]
      exact (realizes.adjointProduct _ _ _ store holds).mono id fun _ fills =>
        fills.length.trans nvar.symm
    project := fun _ _ hout => projects hout
    distance := by
      intro v _ hv
      simp only [hooks, constraintMeaning]
      exact Hooks.answers_distanceToProjection (projects ((Vec.length_zeroed _).trans hv)) }

/-- The dimensions of a tailored model may disagree with those of its base. The base then refuses its
vectors, so nothing need be known about the dimensions. -/
theorem Tailored.realizesConstraints {node : Tailored α}
    (realizes : base.RealizesConstraints valid meaning)
    (keeps : ∀ constraintSet, node.constraintSet = some constraintSet → constraintSet.KeepsLength) :
    (node.hooks base).RealizesConstraints valid (node.constraintMeaning meaning) := by
  have projects : ∀ {v out : List α}, v.length = node.header.ncon → out.length = node.header.ncon →
      Answers valid True (node.project base v out) (·.length = node.header.ncon)
        (node.projectMeaning meaning v) := by
    intro v out hv hout store holds
    unfold project projectMeaning
    cases chosen : node.constraintSet with
    | none => exact .throw holds
    | some constraintSet =>
        cases constraintSet with
        | ofBase =>
            simp only
            rw [valueBuffer, ConstraintMeaning.projectAt_congr (hout.trans (Vec.length_zeros _).symm)]
            exact (realizes.project _ _ store holds).mono id fun _ fills =>
              fills.length_out.trans hout
        | projectedBy project =>
            exact .ofExcept holds fun p same => (keeps _ chosen v p same).trans hv
  exact {
    constraints := by
      intro x out _ _ hout store holds
      change out.length = node.header.ncon at hout
      simp only [hooks, constraintMeaning, valueBuffer]
      rw [ConstraintMeaning.constraintsAt_congr (hout.trans (Vec.length_zeros _).symm)]
      exact (realizes.constraints _ _ store holds).mono id fun _ fills => fills.length_out.trans hout
    jacobianProduct := by
      intro x v out _ _ _ hout store holds
      change out.length = node.header.ncon at hout
      simp only [hooks, constraintMeaning, valueBuffer]
      rw [ConstraintMeaning.jacobianProductAt_congr (hout.trans (Vec.length_zeros _).symm)]
      exact (realizes.jacobianProduct _ _ _ store holds).mono id fun _ fills =>
        fills.length_out.trans hout
    adjointProduct := by
      intro x v out _ _ _ hout store holds
      change out.length = node.header.nvar at hout
      simp only [hooks, constraintMeaning, pointBuffer]
      rw [ConstraintMeaning.adjointProductAt_congr (hout.trans (Vec.length_zeros _).symm)]
      exact (realizes.adjointProduct _ _ _ store holds).mono id fun _ fills =>
        fills.length_out.trans hout
    project := fun _ hv hout => projects hv hout
    distance := by
      intro v _ hv
      simp only [hooks, constraintMeaning]
      exact Hooks.answers_distanceToProjection (projects hv ((Vec.length_zeroed _).trans hv)) }

end Reformulations

section Models

variable [Elementary α] {models : List (Model α)} {penalties : Table (Penalty α)}
  {valid : Store α → Prop}

theorem Model.realizesConstraints_hooks (family : Family models)
    (steady : Store.Steady models penalties valid) {model : Model α} (member : model ∈ models) :
    model.oracle.hooks.RealizesConstraints valid model.constraintMeaning := by
  induction model with
  | backend leaf => exact leaf.realizesConstraints steady (family.regular member)
  | expression leaf => exact leaf.realizesConstraints (family.regular member)
  | slack node base ih =>
      rcases family.regular member with ⟨nvar, ncon⟩
      have realizes := (ih (family.bases member rfl)).oracle (by simp) (by simp)
      refine Slack.realizesConstraints realizes ?_ ?_
      · simpa using nvar
      · simpa using ncon
  | proximalPoint node base ih =>
      rcases family.regular member with ⟨nvar, ncon, _⟩
      have realizes := (ih (family.bases member rfl)).oracle (by simp) (by simp)
      refine ProximalPoint.realizesConstraints realizes ?_ ?_
      · simpa using nvar
      · simpa using ncon
  | augmentedLagrangian node base =>
      rcases family.regular member with ⟨_, ncon, _⟩
      exact Unconstrained.realizesConstraints ncon
  | feasibility node base =>
      rcases family.regular member with ⟨_, ncon, _⟩
      exact Unconstrained.realizesConstraints ncon
  | tailored node base ih =>
      rcases family.regular member with ⟨keeps, _⟩
      have realizes := (ih (family.bases member rfl)).oracle (by simp) (by simp)
      exact Tailored.realizesConstraints realizes keeps

/-- Asking about `c` and `S` keeps every condition on the store that is steady. -/
theorem Model.realizesConstraints_of_steady (family : Family models)
    (steady : Store.Steady models penalties valid) {model : Model α} (member : model ∈ models) :
    model.oracle.RealizesConstraints valid model.constraintMeaning :=
  (Model.realizesConstraints_hooks family steady member).oracle (by simp) (by simp)

/-- Every model of a family answers about `c` and `S` as its meaning says. -/
theorem Model.realizesConstraints (family : Family models) {model : Model α}
    (member : model ∈ models) :
    model.oracle.RealizesConstraints (Store.Ready models penalties) model.constraintMeaning :=
  Model.realizesConstraints_of_steady family (Store.Ready.steady family) member

end Models

end CompositeModels
