/-
Module: CompositeModels.Proofs.Fusion
Purpose: Fused evaluations agree with separate ones on every stack, without any law of arithmetic. Most
  models evaluate one part after the other. The slack reformulation and the augmented Lagrangian ask the
  fused evaluation of their base instead, in an order of their own, so the agreement is carried up the
  stack. A residual that is kept makes answers depend on the history, but the evaluations at one point
  all find the same one.
Main exports: Joint, SmoothMeaning.Fused, AugmentedLagrangian.fused, Model.exists_fusedMeaning,
  Call.IsEvaluationAt, Session.Reachable.fused_evaluations_agree
-/
import CompositeModels.Proofs.Lagrangian
import CompositeModels.Proofs.Realization.History

namespace CompositeModels

open Eval (Answers)

/-! ### Two results at once -/

/-- A computation of a pair returns exactly what two computations of its parts return, and it fails if and
only if one of them does. -/
structure Joint {ε β γ : Type} (both : Except ε (β × γ)) (first : Except ε β) (second : Except ε γ) :
    Prop where
  returns : ∀ value content, both = .ok (value, content) ↔ first = .ok value ∧ second = .ok content
  fails : (∃ cause, both = .error cause) ↔
    (∃ cause, first = .error cause) ∨ ∃ cause, second = .error cause

namespace Joint

variable {ε β γ δ : Type} {both : Except ε (β × γ)} {first : Except ε β} {second : Except ε γ}

/-- What does not return fails, so it is enough to compare what is returned. -/
theorem of_returns
    (returns : ∀ value content, both = .ok (value, content) ↔
      first = .ok value ∧ second = .ok content) : Joint both first second where
  returns := returns
  fails := by
    cases both with
    | ok pair =>
        rcases (returns pair.1 pair.2).1 rfl with ⟨rfl, rfl⟩
        simp
    | error cause =>
        cases first with
        | error other => simp
        | ok value =>
            cases second with
            | error other => simp
            | ok content => cases (returns value content).2 ⟨rfl, rfl⟩

theorem ok (value : β) (content : γ) :
    Joint (ε := ε) (.ok (value, content)) (.ok value) (.ok content) :=
  .of_returns fun _ _ => by simp

/-- One after the other. -/
theorem separate (first : Except ε β) (second : Except ε γ) :
    Joint (do
      let value ← first
      let content ← second
      return (value, content)) first second := by
  cases first with
  | error cause => exact .of_returns fun _ _ => by simp [bind, Except.bind]
  | ok value =>
      cases second with
      | error cause => exact .of_returns fun _ _ => by simp [bind, Except.bind]
      | ok content => exact .ok value content

/-- What is done to the second result can be done to that of the pair. -/
theorem map_right (joint : Joint both first second) (f : γ → δ) :
    Joint (do
      let (value, content) ← both
      return (value, f content)) first (do return f (← second)) := by
  apply of_returns
  intro value result
  rw [bind_eq_ok_iff, bind_eq_ok_iff]
  constructor
  · rintro ⟨⟨value', content⟩, returned, same⟩
    cases same
    rcases (joint.returns _ _).1 returned with ⟨firstReturned, secondReturned⟩
    exact ⟨firstReturned, content, secondReturned, rfl⟩
  · rintro ⟨firstReturned, content, secondReturned, same⟩
    cases same
    exact ⟨(value, content), (joint.returns _ _).2 ⟨firstReturned, secondReturned⟩, rfl⟩

/-- Checks that come before a pair and before its second part may be left out before the first. -/
theorem check_bind {check : Except ε Unit} {both : Unit → Except ε (β × γ)} {first : Except ε β}
    {second : Unit → Except ε γ} (joint : check = .ok () → Joint (both ()) first (second ())) :
    Joint (check >>= both) first (check >>= second) := by
  cases check with
  | error cause => exact .of_returns fun _ _ => by simp [bind, Except.bind]
  | ok => exact joint rfl

end Joint

/-! ### Fused meanings -/

/-- The fused evaluation of the objective and its gradient is that of both. -/
def SmoothMeaning.Fused {α : Type} (meaning : SmoothMeaning α) : Prop :=
  ∀ x, Joint (meaning.objectiveGradient x) (meaning.objective x) (meaning.gradient x)

section Meanings

variable {α : Type} [Scalar α] {meaning : SmoothMeaning α} {restriction : ConstraintMeaning α}

theorem SmoothMeaning.Fused.objectiveGradientAt (fused : meaning.Fused) (x : Tensor α)
    (out : Option (Tensor α)) :
    Joint (meaning.objectiveGradientAt x out) (meaning.objectiveAt x) (meaning.gradientAt x out) := by
  apply Joint.check_bind
  intro checked
  have objectiveAt : meaning.objectiveAt x = meaning.objective x.entries := by
    rw [SmoothMeaning.objectiveAt, (shapes_eq_of_check checked).1, checkVectors_self]
    rfl
  rw [objectiveAt]
  exact fused x.entries

/-- The objective and the constraints together are one after the other, with the checks in front. -/
theorem SmoothMeaning.joint_objectiveConstraintsAt (nvar : restriction.nvar = meaning.nvar)
    (x : Tensor α) (out : Option (Tensor α)) :
    Joint (meaning.objectiveConstraintsAt restriction x out) (meaning.objectiveAt x)
      (restriction.constraintsAt x out) := by
  unfold objectiveConstraintsAt ConstraintMeaning.constraintsAt
  rw [nvar]
  apply Joint.check_bind
  intro checked
  apply Joint.check_bind
  intro _
  have objectiveAt : meaning.objectiveAt x = meaning.objective x.entries := by
    rw [SmoothMeaning.objectiveAt, shape_eq_of_check checked, checkVectors_self]
    rfl
  rw [objectiveAt]
  split
  · exact .separate _ _
  · exact .separate _ (.ok [])

omit [Scalar α] in
theorem BackendLeaf.fused (leaf : BackendLeaf α) : leaf.smoothMeaning.Fused := fun _ => .separate _ _

theorem ExpressionLeaf.fused {β : Type} [Elementary β] (leaf : ExpressionLeaf β) :
    leaf.smoothMeaning.Fused := fun _ => .ok _ _

theorem Slack.fused {wrapper : Wrapper α} (fused : meaning.Fused) :
    (Slack.smoothMeaning wrapper meaning).Fused := fun x =>
  (fused.objectiveGradientAt (.vector (x.take meaning.nvar)) none).map_right
    (· ++ Vec.zeroed (x.drop meaning.nvar))

theorem ProximalPoint.fused (node : ProximalPoint α) : node.smoothMeaning.Fused := fun _ => .ok _ _

/-- The objective asks the base for its objective and its constraints together, the gradient asks for the
constraints and later for the gradient, and the fused evaluation for the constraints and later for both.
All three find the same constraints, the same penalty term and the same multiplier estimate. -/
theorem AugmentedLagrangian.fused {node : AugmentedLagrangian α} {penalty : Penalty α}
    (fused : meaning.Fused) (nvar : restriction.nvar = meaning.nvar) :
    (node.smoothMeaning penalty restriction meaning).Fused := by
  intro x
  have slopes := fused.objectiveGradientAt (.vector x) none
  have values := SmoothMeaning.joint_objectiveConstraintsAt nvar (.vector x) none
  apply Joint.of_returns
  intro value content
  simp only [smoothMeaning, bind_eq_ok_iff]
  constructor
  · rintro ⟨c, constraints, ⟨term, estimate⟩, penaltyTerm, ⟨f, slope⟩, both, correction, adjoint, same⟩
    cases same
    rcases (slopes.returns _ _).1 both with ⟨objective, gradient⟩
    refine ⟨⟨(f, c), ?_, _, penaltyTerm, rfl⟩,
      ⟨c, constraints, _, penaltyTerm, slope, gradient, correction, adjoint, rfl⟩⟩
    exact (values.returns _ _).2 ⟨objective, constraints⟩
  · rintro ⟨⟨⟨f, c⟩, both, ⟨term, estimate⟩, penaltyTerm, sameValue⟩,
      ⟨c', constraints', ⟨term', estimate'⟩, penaltyTerm', slope, gradient, correction, adjoint,
        sameContent⟩⟩
    rcases (values.returns _ _).1 both with ⟨objective, constraints⟩
    -- The base gives the same constraints to both, and so the penalty is the same.
    cases constraints.symm.trans constraints'
    cases penaltyTerm.symm.trans penaltyTerm'
    cases sameValue
    cases sameContent
    refine ⟨c, constraints, _, penaltyTerm, (f, slope), ?_, correction, adjoint, rfl⟩
    exact (slopes.returns _ _).2 ⟨objective, gradient⟩

theorem Feasibility.fused (node : Feasibility α) : (node.smoothMeaning restriction).Fused :=
  fun _ => .separate _ _

theorem Tailored.fused (node : Tailored α) : (node.smoothMeaning meaning).Fused :=
  fun _ => .separate _ _

end Meanings

/-! ### Fused answers -/

/-- From a ready store, the questions about `f` at one point are answered as a meaning says that is fused,
and go on to be after each of them. -/
theorem Model.exists_fusedMeaning {α : Type} [Elementary α] {models : List (Model α)}
    {penalties : Table (Penalty α)} (family : Family models) {store : Store α}
    (ready : store.Ready models penalties) {model : Model α} (member : model ∈ models)
    (x : Tensor α) :
    ∃ (valid : Store α → Prop) (meaning : SmoothMeaning α), valid store ∧
      Store.Steady models penalties valid ∧ meaning.Fused ∧
      model.oracle.RealizesSmoothAt valid True model.constraintMeaning meaning x := by
  have passedOn : SmoothMeaning.PassedOn models penalties fun _ meaning => meaning.Fused := {
    backend := fun {leaf} _ => leaf.fused
    expression := fun {leaf} _ => leaf.fused
    slack := fun _ _ fused => Slack.fused fused
    proximalPoint := fun {node _} _ => node.fused
    augmentedLagrangian := fun _ nvar fused => AugmentedLagrangian.fused fused (by simp [nvar])
    feasibility := fun {node _ _} _ _ => node.fused
    tailored := fun {node _ _} _ _ _ => node.fused }
  exact passedOn.exists_meaning family ready member x

/-! ### Every session -/

section Sessions

variable {α : Type}

/-- Calls that evaluate `f` or `c`, with or without the gradient of `f`, at one point. -/
def Call.IsEvaluationAt (x : Tensor α) : Call α → Prop
  | .objective y | .gradient y _ | .objectiveGradient y _ | .constraints y _
  | .objectiveConstraints y _ => y = x
  | _ => False

variable [Elementary α]

/-- An evaluation is answered alike from all valid stores, and leaves a valid store behind. -/
theorem Oracle.RealizesSmoothAt.exists_answer {oracle : Oracle α} {valid : Store α → Prop}
    {restriction : ConstraintMeaning α} {meaning : SmoothMeaning α} {x : Tensor α}
    (realizes : oracle.RealizesSmoothAt valid True restriction meaning x)
    (constraints : oracle.RealizesConstraints valid restriction) {call : Call α}
    (evaluation : call.IsEvaluationAt x) :
    ∃ answer, Answers valid True (oracle.call call) (fun _ => True) answer := by
  cases call with
  | objective y =>
      cases evaluation
      exact ⟨_, answers_pack realizes.objective id fun _ _ => trivial⟩
  | gradient y out =>
      cases evaluation
      exact ⟨_, answers_pack (realizes.gradient out) id fun _ _ => trivial⟩
  | objectiveGradient y out =>
      cases evaluation
      exact ⟨_, answers_pack (realizes.objectiveGradient out) id fun _ _ => trivial⟩
  | constraints y out =>
      cases evaluation
      exact ⟨_, answers_pack (constraints.constraints x out) id fun _ _ => trivial⟩
  | objectiveConstraints y out =>
      cases evaluation
      exact ⟨_, answers_pack (realizes.objectiveConstraints out) id fun _ _ => trivial⟩
  | jacobianProduct | adjointProduct | project | distance | proximal | proximalWithValue =>
      cases evaluation

/-- A run of evaluations keeps what each of them keeps. -/
theorem Session.valid_run_evaluations {session : Session α} {model : Model α}
    {valid : Store α → Prop} {calls : List (Call α)} (holds : valid session.store)
    (keeps : ∀ call ∈ calls, ∃ answer,
      Answers valid True (model.oracle.call call) (fun _ => True) answer) :
    valid (session.run (calls.map (.call model))).store := by
  induction calls generalizing session with
  | nil => exact holds
  | cons call rest ih =>
      obtain ⟨answer, answers⟩ := keeps call (.head _)
      have later : valid (session.perform (.call model call)).store := (answers _ holds).keeps
      exact ih later fun other member => keeps other (.tail _ member)

/-- On every stack and after every history, the fused evaluations return what the separate ones return
and fail if and only if one of them fails. So it does not matter whether they are asked for at once or
in any order: evaluations at one point change none of each other's answers. -/
theorem Session.Reachable.fused_evaluations_agree {session : Session α}
    (reachable : session.Reachable) {model : Model α} (member : model ∈ session.models)
    (x : Tensor α) :
    (∀ out, Joint ((model.oracle.objectiveGradient x out).outcome session.store)
      ((model.oracle.objective x).outcome session.store)
      ((model.oracle.gradient x out).outcome session.store)) ∧
    (∀ out, Joint ((model.oracle.objectiveConstraints x out).outcome session.store)
      ((model.oracle.objective x).outcome session.store)
      ((model.oracle.constraints x out).outcome session.store)) ∧
    ∀ calls : List (Call α), (∀ call ∈ calls, call.IsEvaluationAt x) →
      ∀ call : Call α, call.IsEvaluationAt x →
        (model.oracle.call call).outcome (session.run (calls.map (.call model))).store =
          (model.oracle.call call).outcome session.store := by
  rcases reachable.sound with ⟨family, ready⟩
  obtain ⟨valid, meaning, holds, steady, fused, realizes⟩ :=
    Model.exists_fusedMeaning family ready member x
  have constraints : model.oracle.RealizesConstraints valid model.constraintMeaning :=
    Model.realizesConstraints_of_steady family steady member
  have nvar : model.constraintMeaning.nvar = meaning.nvar := by
    rw [realizes.nvar, constraints.nvar]
  have objective := (realizes.objective _ holds).agrees trivial
  refine ⟨fun out => ?_, fun out => ?_, fun calls evaluations call evaluation => ?_⟩
  · rw [objective, (realizes.gradient out _ holds).agrees trivial,
      (realizes.objectiveGradient out _ holds).agrees trivial]
    exact fused.objectiveGradientAt x out
  · rw [objective, (constraints.constraints x out _ holds).agrees trivial,
      (realizes.objectiveConstraints out _ holds).agrees trivial]
    exact SmoothMeaning.joint_objectiveConstraintsAt nvar x out
  · obtain ⟨answer, answers⟩ := realizes.exists_answer constraints evaluation
    have later : valid (session.run (calls.map (.call model))).store :=
      Session.valid_run_evaluations holds fun other among =>
        realizes.exists_answer constraints (evaluations other among)
    rw [(answers _ later).agrees trivial, (answers _ holds).agrees trivial]

end Sessions

/-- At `[2; 3, 4]` the slack reformulation of the ball problem has the objective `2`, the gradient
`(1, 0, 0)` and the constraint values `(2, 8)`, so these are what its fused evaluations return. -/
theorem Session.fused_evaluations_agree_ball :
    balled.Reachable ∧ .slack ballSlack ball ∈ balled.models ∧
      ((Model.slack ballSlack ball).oracle.objectiveGradient (.vector [2, 3, 4]) none).outcome
        balled.store = .ok (2, [1, 0, 0]) ∧
      ((Model.slack ballSlack ball).oracle.objectiveConstraints (.vector [2, 3, 4]) none).outcome
        balled.store = .ok (2, [2, 8]) := by
  have member := ballSlack_mem_balled
  have sound := reachable_balled.sound
  have objective : ((Model.slack ballSlack ball).oracle.objective (.vector [2, 3, 4])).outcome
      balled.store = .ok 2 := by
    rw [sound.outcome_objective member (Model.repeatable _)]
    rfl
  have gradient : ((Model.slack ballSlack ball).oracle.gradient (.vector [2, 3, 4]) none).outcome
      balled.store = .ok [1, 0, 0] := by
    rw [sound.outcome_gradient member (Model.repeatable _)]
    change Except.ok [(0 : ℝ) + 1, 0, 0] = _
    norm_num
  have constraints :
      ((Model.slack ballSlack ball).oracle.constraints (.vector [2, 3, 4]) none).outcome
        balled.store = .ok [2, 8] := by
    rw [sound.outcome_constraints member]
    change Except.ok [(3 : ℝ) + 2 - 3, 4 + 4 * 2 - 4] = _
    norm_num
  obtain ⟨gradients, values, _⟩ := reachable_balled.fused_evaluations_agree member (.vector [2, 3, 4])
  exact ⟨reachable_balled, member, ((gradients none).returns _ _).2 ⟨objective, gradient⟩,
    ((values none).returns _ _).2 ⟨objective, constraints⟩⟩

end CompositeModels
