/-
Module: CompositeModels.Proofs.SlackInfeasibility
Purpose: The feasibility problem of a slack reformulation. Its residual at `[x; s]` is `c(x) - s`, which
  is shortest for the slacks that the base projects `c(x)` to. For the losses that compare residuals by
  their norms, these slacks therefore give the infeasibility of the base, and the gradient there is that of
  the base beside minus the direction of the loss. The set need not be convex.
Main exports: Session.Sound.residualOutcome_slack, SlackInfeasibility,
  SlackInfeasibility.outcome_infeasibility_slack,
  SlackInfeasibility.outcome_infeasibilityGradient_slack, Session.Reachable.slack_infeasibility
-/
import CompositeModels.Proofs.InfeasibilityGradient
import CompositeModels.Proofs.LossOrder

namespace CompositeModels

section

variable {session : Session ℝ} {problem slackProblem : Feasibility ℝ} {wrapper : Wrapper ℝ}
  {base : Model ℝ} {x : List ℝ} {c z : Fin base.header.ncon → ℝ}

/-- The set of the slack reformulation is the zero vector alone, so its residual is `c(x) - s`. -/
theorem Session.Sound.residualOutcome_slack (sound : session.Sound)
    (member : .slack wrapper base ∈ session.models) (lengthX : x.length = base.header.nvar)
    (constraints : (base.oracle.constraints (.vector x) none).outcome session.store =
      .ok (List.ofFn c)) (s : Fin base.header.ncon → ℝ) :
    (Model.slack wrapper base).residualOutcome session.store (x ++ List.ofFn s) =
      .ok (List.ofFn fun i => c i - s i) := by
  have lengthR : (List.ofFn fun i => c i - s i).length = base.header.ncon := List.length_ofFn
  rw [Model.residualOutcome, sound.outcome_constraints_slack member lengthX List.length_ofFn,
    constraints]
  simp only [ok_bind, Vec.sub_ofFn, pure_bind, sound.outcome_project_slack member lengthR,
    Vec.zeroed_ofFn, sub_zero]
  rfl

/-- A feasibility problem and one of the slack reformulation, with the same loss. -/
structure SlackInfeasibility (session : Session ℝ) (problem slackProblem : Feasibility ℝ)
    (wrapper : Wrapper ℝ) (base : Model ℝ) (x : List ℝ) : Prop where
  point : FeasibilityPoint session problem base x
  slackMember : .feasibility slackProblem (.slack wrapper base) ∈ session.models
  sameLoss : slackProblem.loss = problem.loss
  sameHuber : slackProblem.huber = problem.huber

namespace SlackInfeasibility

variable (pair : SlackInfeasibility session problem slackProblem wrapper base x)
include pair

theorem wrapperMember : .slack wrapper base ∈ session.models :=
  pair.point.sound.family.bases pair.slackMember rfl

theorem slackPoint (s : Fin base.header.ncon → ℝ) :
    FeasibilityPoint session slackProblem (.slack wrapper base) (x ++ List.ofFn s) where
  sound := pair.point.sound
  member := pair.slackMember
  pointFunction := Model.pointFunction _
  lengthX := by
    rw [List.length_append, pair.point.lengthX, List.length_ofFn,
      pair.point.sound.nvar_slack pair.wrapperMember]

variable (constraints : (base.oracle.constraints (.vector x) none).outcome session.store =
  .ok (List.ofFn c))
include constraints

theorem residual_slack (s : Fin base.header.ncon → ℝ) :
    (Model.slack wrapper base).residualOutcome session.store (x ++ List.ofFn s) =
      .ok (List.ofFn fun i => c i - s i) :=
  pair.point.sound.residualOutcome_slack pair.wrapperMember pair.point.lengthX constraints s

theorem outcome_infeasibility_slack (s : Fin base.header.ncon → ℝ) :
    (slackProblem.infeasibility (Model.slack wrapper base).oracle
        (.vector (x ++ List.ofFn s))).outcome session.store =
      .ok (problem.loss.value problem.huber (List.ofFn fun i => c i - s i)) := by
  rw [(pair.slackPoint s).outcome_infeasibility, pair.residual_slack constraints, pair.sameLoss,
    pair.sameHuber]
  rfl

/-- At the projection both problems have the same residual, so they have the same direction. The slack
reformulation pulls it back to the variables as its base does, and to the slacks with the other sign. -/
theorem outcome_infeasibilityGradient_slack
    (residual : base.residualOutcome session.store x = .ok (List.ofFn fun i => c i - z i))
    {d : Fin base.header.ncon → ℝ}
    (direction : problem.loss.IsDirection problem.huber (List.ofFn fun i => c i - z i) d) :
    (slackProblem.infeasibilityGradient (Model.slack wrapper base).oracle
        (.vector (x ++ List.ofFn z)) none).outcome session.store = (do
      let slope ← (problem.infeasibilityGradient base.oracle (.vector x) none).outcome session.store
      return slope ++ Vec.neg (List.ofFn d)) := by
  have slackResidual := pair.residual_slack constraints z
  have same : slackProblem.loss.direction slackProblem.huber =
      problem.loss.direction problem.huber := by
    rw [pair.sameLoss, pair.sameHuber]
  rcases direction with given | ⟨withheld, rfl⟩
  · rw [pair.point.outcome_infeasibilityGradient_of_direction residual given,
      (pair.slackPoint z).outcome_infeasibilityGradient_of_direction slackResidual
        ((congrFun same _).trans given)]
    exact pair.point.sound.outcome_adjointProduct_slack pair.wrapperMember pair.point.lengthX
      List.length_ofFn List.length_ofFn
  · rw [pair.point.outcome_infeasibilityGradient_of_none residual withheld,
      (pair.slackPoint z).outcome_infeasibilityGradient_of_none slackResidual
        ((congrFun same _).trans withheld), pair.point.sound.nvar_slack pair.wrapperMember]
    have zero : Vec.neg (List.ofFn (0 : Fin base.header.ncon → ℝ)) = Vec.zeros base.header.ncon := by
      rw [Vec.neg_ofFn, Vec.zeros_eq_ofFn]
      simp only [Pi.zero_apply, neg_zero]
    rw [ok_bind, zero]
    exact congrArg Except.ok (List.replicate_add _ _ _)

end SlackInfeasibility

end

/-- In every session, for a base that projects onto a set `S`, which need not be convex, and for all losses
that compare residuals by their norms: at every point `x`, the infeasibility is at most that of the slack
reformulation at `[x; s]` for each `s` in `S`, and it is the same at the projection `z` of the constraint
values. There the two problems find the same violation too, and the gradient of the second is that of the
first beside minus the direction of the loss, which counts as zero where the norm is too small to have one.
One gradient fails whenever the other does. -/
theorem Session.Reachable.slack_infeasibility {session : Session ℝ} (reachable : session.Reachable)
    {problem slackProblem : Feasibility ℝ} {wrapper : Wrapper ℝ} {base : Model ℝ}
    (member : .feasibility problem base ∈ session.models)
    (slackMember : .feasibility slackProblem (.slack wrapper base) ∈ session.models)
    (sameLoss : slackProblem.loss = problem.loss) (sameHuber : slackProblem.huber = problem.huber)
    (normed : problem.loss ≠ .abs) {S : Set (Fin base.header.ncon → ℝ)}
    (projects : base.ProjectsOnto session.store S) {x : List ℝ}
    (lengthX : x.length = base.header.nvar) {c : Fin base.header.ncon → ℝ}
    (constraints : (base.oracle.constraints (.vector x) none).outcome session.store =
      .ok (List.ofFn c)) :
    ∃ (z d : Fin base.header.ncon → ℝ) (least violation : ℝ),
      IsNearest S c z ∧
      (base.oracle.project (.vector (List.ofFn c)) none).outcome session.store =
        .ok (List.ofFn z) ∧
      (problem.infeasibility base.oracle (.vector x)).outcome session.store = .ok least ∧
      (∀ s ∈ S, ∃ value,
        (slackProblem.infeasibility (Model.slack wrapper base).oracle
          (.vector (x ++ List.ofFn s))).outcome session.store = .ok value ∧ least ≤ value) ∧
      (slackProblem.infeasibility (Model.slack wrapper base).oracle
        (.vector (x ++ List.ofFn z))).outcome session.store = .ok least ∧
      (problem.violation base.oracle (.vector x)).outcome session.store = .ok violation ∧
      (slackProblem.violation (Model.slack wrapper base).oracle
        (.vector (x ++ List.ofFn z))).outcome session.store = .ok violation ∧
      problem.loss.IsDirection problem.huber (List.ofFn fun i => c i - z i) d ∧
      (slackProblem.infeasibilityGradient (Model.slack wrapper base).oracle
          (.vector (x ++ List.ofFn z)) none).outcome session.store = (do
        let slope ←
          (problem.infeasibilityGradient base.oracle (.vector x) none).outcome session.store
        return slope ++ Vec.neg (List.ofFn d)) := by
  have pair : SlackInfeasibility session problem slackProblem wrapper base x :=
    ⟨⟨reachable.sound, member, base.pointFunction, lengthX⟩, slackMember, sameLoss, sameHuber⟩
  have checked : problem.Checked := reachable.configured _ member
  obtain ⟨z, nearest, project⟩ := projects c
  have residual : base.residualOutcome session.store x = .ok (List.ofFn fun i => c i - z i) := by
    rw [Model.residualOutcome_eq constraints project, Vec.sub_ofFn]
  obtain ⟨d, direction, _⟩ := problem.loss.exists_isDirection checked.threshold
    fun i => c i - z i
  refine ⟨z, d, problem.loss.value problem.huber (List.ofFn fun i => c i - z i),
    Vec.maxAbs (List.ofFn fun i => c i - z i), nearest, project, ?_, fun s hs => ?_,
    pair.outcome_infeasibility_slack constraints z, ?_, ?_, direction,
    pair.outcome_infeasibilityGradient_slack constraints residual direction⟩
  · rw [pair.point.outcome_infeasibility, residual]
    rfl
  · exact ⟨_, pair.outcome_infeasibility_slack constraints s, Loss.value_le_of_norm_le
      checked.threshold checked.scale normed (nearest.norm_residual_le hs)⟩
  · rw [pair.point.outcome_violation, residual]
    rfl
  · rw [(pair.slackPoint z).outcome_violation, pair.residual_slack constraints]
    rfl

/-- The Huber problems of the ball problem and of its slack reformulation, at `x = 2`. -/
theorem Session.slack_infeasibility_ball :
    ∃ (problem slackProblem : Feasibility ℝ) (session : Session ℝ) (z : Fin 2 → ℝ) (least : ℝ),
      session.Reachable ∧ problem.loss = .huber ∧ z ∈ centeredBall 2 5 ∧
      (problem.infeasibility ball.oracle (.vector [2])).outcome session.store = .ok least ∧
      (slackProblem.infeasibility (Model.slack ballSlack ball).oracle
        (.vector ([2] ++ List.ofFn z))).outcome session.store = .ok least ∧
      ∀ s ∈ centeredBall 2 5, ∃ value,
        (slackProblem.infeasibility (Model.slack ballSlack ball).oracle
          (.vector ([2] ++ List.ofFn s))).outcome session.store = .ok value ∧ least ≤ value := by
  obtain ⟨earlier, earlierReachable, earlierModels, _⟩ := Feasibility.exists_ofLoss reachable_balled
    ball_mem_balled (le_refl 1) rfl .huber ⟨1, 1⟩ one_pos one_pos
  have slackKnown : .slack ballSlack ball ∈ earlier.models := by
    rw [earlierModels]
    exact .tail _ ballSlack_mem_balled
  obtain ⟨session, reachable, models, _⟩ := Feasibility.exists_ofLoss earlierReachable slackKnown
    (Nat.le_add_left 1 2) rfl .huber ⟨1, 1⟩ one_pos one_pos
  have member : .feasibility (.ofLoss ball.header .huber ⟨1, 1⟩ balled.store.next) ball ∈
      session.models := by
    rw [models, earlierModels]
    exact .tail _ (.head _)
  have slackMember : .feasibility
      (.ofLoss (Model.slack ballSlack ball).header .huber ⟨1, 1⟩ earlier.store.next)
      (.slack ballSlack ball) ∈ session.models := by
    rw [models]
    exact .head _
  have sound := reachable.sound
  have known : ball ∈ session.models := sound.family.bases member rfl
  obtain ⟨z, _, least, _, nearest, _, value, above, same, _⟩ := reachable.slack_infeasibility member
    slackMember rfl rfl (fun other => by cases other) (sound.projectsOnto_ball known) (x := [2]) rfl
    (sound.outcome_constraints_ball_two known)
  exact ⟨_, _, session, z, least, reachable, rfl, nearest.member, value, same, above⟩

end CompositeModels
