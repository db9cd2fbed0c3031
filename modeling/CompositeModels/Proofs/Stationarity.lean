/-
Module: CompositeModels.Proofs.Stationarity
Purpose: Stationary points of a problem with constraints, of its slack reformulation and of its augmented
  Lagrangian. A point is stationary when a proximal gradient step leads back to it. With one penalty
  parameter for all constraints, the three notions agree in exact arithmetic, for any set and any term.
Main exports: Model.Returns, Model.Stationary, SlackPoint.feasible_iff, SlackPoint.stationary_iff,
  AugmentedPoint.estimate_iff, AugmentedPoint.returns_iff, AugmentedLagrangian.stationary_tfae
-/
import CompositeModels.Proofs.Lagrangian
import Mathlib.Data.List.TFAE
import Mathlib.Tactic.TFAE

namespace CompositeModels

/-- The proximal point of a step of length `a` from `x` against `slope` is `x` again. -/
def Model.Returns (model : Model ℝ) (store : Store ℝ) (a : ℝ) (x slope : List ℝ) : Prop :=
  (model.oracle.proximal (.vector (Vec.sub x (Vec.scale a slope))) a none).outcome store = .ok x

/-- The step along the gradient of the Lagrangian with multipliers `y` leads back to `x`. -/
def Model.Stationary (model : Model ℝ) (store : Store ℝ) (a : ℝ) (x y : List ℝ) : Prop :=
  ∃ slope correction,
    (model.oracle.gradient (.vector x) none).outcome store = .ok slope ∧
      (model.oracle.adjointProduct (.vector x) (.vector y) none).outcome store = .ok correction ∧
      model.Returns store a x (Vec.add slope correction)

variable {session : Session ℝ} {base : Model ℝ} {x s y : List ℝ} {a : ℝ}

namespace SlackPoint

variable {wrapper : Wrapper ℝ} (point : SlackPoint session wrapper base x s)
include point

/-- The constraints of the slack reformulation hold exactly if the slacks are the constraint values. -/
theorem feasible_iff :
    ((Model.slack wrapper base).oracle.constraints (.vector (x ++ s)) none).outcome session.store =
        .ok (Vec.zeros base.header.ncon) ↔
      (base.oracle.constraints (.vector x) none).outcome session.store = .ok s := by
  rw [point.outcome_constraints, bind_eq_ok_iff]
  constructor
  · rintro ⟨c, returned, difference⟩
    have length : c.length = base.header.ncon :=
      point.sound.length_constraints point.baseMember returned
    have same : c = s := (Vec.sub_eq_zeros_iff length point.lengthS).1 (Except.ok.inj difference)
    rw [returned, same]
  · intro returned
    have zeros : Vec.sub s s = Vec.zeros base.header.ncon :=
      (Vec.sub_eq_zeros_iff point.lengthS point.lengthS).2 rfl
    exact ⟨s, returned, congrArg Except.ok zeros⟩

/-- A proximal point of the slack reformulation is one of the base beside a projection. -/
theorem proximal_eq_ok_iff {u t : List ℝ} (lengthU : u.length = base.header.nvar)
    (lengthT : t.length = base.header.ncon) (positive : 0 < a) :
    ((Model.slack wrapper base).oracle.proximal (.vector (u ++ t)) a none).outcome session.store =
        .ok (x ++ s) ↔
      (base.oracle.proximal (.vector u) a none).outcome session.store = .ok x ∧
        (base.oracle.project (.vector t) none).outcome session.store = .ok s := by
  have moved : SlackPoint session wrapper base u t :=
    { point with lengthX := lengthU, lengthS := lengthT }
  rw [moved.outcome_proximal positive, bind_eq_ok_iff]
  constructor
  · rintro ⟨proximal, proximalEq, rest⟩
    obtain ⟨projected, projectedEq, joined⟩ := exists_of_bind_eq_ok rest
    have length : proximal.length = x.length := by
      rw [point.sound.length_proximal point.baseMember proximalEq, point.lengthX]
    obtain ⟨rfl, rfl⟩ := List.append_inj (Except.ok.inj joined) length
    exact ⟨proximalEq, projectedEq⟩
  · rintro ⟨proximalEq, projectedEq⟩
    refine ⟨x, proximalEq, ?_⟩
    rw [projectedEq]
    rfl

/-- Stationarity of the slack reformulation falls into that of the base and a fixed point of the
projection. -/
theorem stationary_iff (positive : 0 < a) (lengthY : y.length = base.header.ncon) :
    (Model.slack wrapper base).Stationary session.store a (x ++ s) y ↔
      base.Stationary session.store a x y ∧
        (base.oracle.project (.vector (Vec.add s (Vec.scale a y))) none).outcome session.store =
          .ok s := by
  have step : ∀ {slope correction : List ℝ}, slope.length = base.header.nvar →
      correction.length = base.header.nvar →
      ((Model.slack wrapper base).Returns session.store a (x ++ s)
          (Vec.add (slope ++ Vec.zeroed s) (correction ++ Vec.neg y)) ↔
        base.Returns session.store a x (Vec.add slope correction) ∧
          (base.oracle.project (.vector (Vec.add s (Vec.scale a y))) none).outcome
            session.store = .ok s) := by
    intro slope correction lengthSlope lengthCorrection
    unfold Model.Returns
    rw [Vec.sub_scale_append point.lengthX lengthSlope lengthCorrection point.lengthS lengthY]
    apply point.proximal_eq_ok_iff _ _ positive
    · simp [point.lengthX, lengthSlope, lengthCorrection]
    · simp [point.lengthS, lengthY]
  unfold Model.Stationary
  rw [point.outcome_gradient base.repeatable, point.outcome_adjointProduct lengthY]
  constructor
  · rintro ⟨_, _, gradient, adjoint, returns⟩
    obtain ⟨slope, slopeEq, gradient⟩ := exists_of_bind_eq_ok gradient
    obtain ⟨correction, correctionEq, adjoint⟩ := exists_of_bind_eq_ok adjoint
    cases gradient
    cases adjoint
    have returns := (step (point.sound.length_gradient point.baseMember slopeEq)
      (point.sound.length_adjointProduct point.baseMember correctionEq)).1 returns
    exact ⟨⟨slope, correction, slopeEq, correctionEq, returns.1⟩, returns.2⟩
  · rintro ⟨⟨slope, correction, slopeEq, correctionEq, returns⟩, projected⟩
    refine ⟨slope ++ Vec.zeroed s, correction ++ Vec.neg y, ?_, ?_, ?_⟩
    · rw [slopeEq]
      rfl
    · rw [correctionEq]
      rfl
    · exact (step (point.sound.length_gradient point.baseMember slopeEq)
        (point.sound.length_adjointProduct point.baseMember correctionEq)).2 ⟨returns, projected⟩

end SlackPoint

namespace AugmentedPoint

variable {node : AugmentedLagrangian ℝ}
  (point : AugmentedPoint session node base (List.replicate base.header.ncon a) y x)
include point

/-- The multipliers are their own estimate exactly if the shift by them is projected away. -/
theorem estimate_iff (nonzero : a ≠ 0)
    (values : (base.oracle.constraints (.vector x) none).outcome session.store = .ok s) :
    (node.multiplierEstimate base.oracle (.vector x) none).outcome session.store = .ok y ↔
      (base.oracle.project (.vector (Vec.add s (Vec.scale a y))) none).outcome session.store =
        .ok s := by
  have lengthS : s.length = base.header.ncon :=
    point.sound.length_constraints point.baseMember values
  rw [point.outcome_multiplierEstimate, values, ok_bind, Vec.mul_replicate point.lengthY]
  dsimp only
  rw [bind_eq_ok_iff]
  constructor
  · rintro ⟨z, projected, estimate⟩
    have lengthZ : z.length = base.header.ncon :=
      point.sound.length_project point.baseMember projected
    have same : z = s := (Vec.div_replicate_eq_iff lengthS point.lengthY lengthZ nonzero).1
      (Except.ok.inj estimate)
    rw [projected, same]
  · intro projected
    have estimate := (Vec.div_replicate_eq_iff lengthS point.lengthY lengthS nonzero).2 rfl
    exact ⟨s, projected, congrArg Except.ok estimate⟩

/-- Where the multipliers are their own estimate, a step of the augmented Lagrangian is one of the base
with these multipliers. -/
theorem returns_iff (positive : 0 < a)
    (estimate : (node.multiplierEstimate base.oracle (.vector x) none).outcome session.store =
      .ok y) :
    (∃ slope, ((Model.augmentedLagrangian node base).oracle.gradient (.vector x) none).outcome
        session.store = .ok slope ∧
        (Model.augmentedLagrangian node base).Returns session.store a x slope) ↔
      base.Stationary session.store a x y := by
  have step : ∀ {slope correction : List ℝ}, slope.length = base.header.nvar →
      correction.length = base.header.nvar →
      ((Model.augmentedLagrangian node base).Returns session.store a x (Vec.add slope correction) ↔
        base.Returns session.store a x (Vec.add slope correction)) := by
    intro slope correction lengthSlope lengthCorrection
    unfold Model.Returns
    rw [point.outcome_proximal _ positive]
    simp [point.lengthX, lengthSlope, lengthCorrection]
  rw [point.outcome_gradient base.repeatable, estimate, ok_bind]
  constructor
  · rintro ⟨_, gradient, returns⟩
    obtain ⟨slope, slopeEq, gradient⟩ := exists_of_bind_eq_ok gradient
    obtain ⟨correction, correctionEq, gradient⟩ := exists_of_bind_eq_ok gradient
    cases gradient
    have returns := (step (point.sound.length_gradient point.baseMember slopeEq)
      (point.sound.length_adjointProduct point.baseMember correctionEq)).1 returns
    exact ⟨slope, correction, slopeEq, correctionEq, returns⟩
  · rintro ⟨slope, correction, slopeEq, correctionEq, returns⟩
    refine ⟨Vec.add slope correction, ?_, ?_⟩
    · rw [slopeEq, ok_bind, correctionEq]
      rfl
    · exact (step (point.sound.length_gradient point.baseMember slopeEq)
        (point.sound.length_adjointProduct point.baseMember correctionEq)).2 returns

end AugmentedPoint

/-- Stationary points correspond. Let one penalty parameter `a` be in force for all constraints, with
multipliers `y`. Then a point `x` with slacks `s` is feasible and stationary for the slack reformulation
exactly if `s` are the constraint values at `x`, the projection takes their shift by `a * y` back and `x`
is stationary for the base with multipliers `y`. This is so exactly if `y` is its own estimate and `x` is
stationary for the augmented Lagrangian. The objectives are the same. -/
theorem AugmentedLagrangian.stationary_tfae (reachable : session.Reachable)
    {node : AugmentedLagrangian ℝ} {wrapper : Wrapper ℝ}
    (member : .augmentedLagrangian node base ∈ session.models)
    (slackMember : .slack wrapper base ∈ session.models) (constrained : 0 < base.header.ncon)
    (inForce : node.InForce session.store (List.replicate base.header.ncon a) y)
    (lengthX : x.length = base.header.nvar) (lengthS : s.length = base.header.ncon) :
    let store := session.store
    let slack := Model.slack wrapper base
    let lagrangian := Model.augmentedLagrangian node base
    [(slack.oracle.constraints (.vector (x ++ s)) none).outcome store =
          .ok (Vec.zeros base.header.ncon) ∧
        slack.Stationary store a (x ++ s) y,
      (base.oracle.constraints (.vector x) none).outcome store = .ok s ∧
        (base.oracle.project (.vector (Vec.add s (Vec.scale a y))) none).outcome store = .ok s ∧
        base.Stationary store a x y,
      (base.oracle.constraints (.vector x) none).outcome store = .ok s ∧
        (node.multiplierEstimate base.oracle (.vector x) none).outcome store = .ok y ∧
        ∃ slope, (lagrangian.oracle.gradient (.vector x) none).outcome store = .ok slope ∧
          lagrangian.Returns store a x slope].TFAE ∧
      (slack.oracle.objective (.vector (x ++ s))).outcome store =
        (base.oracle.objective (.vector x)).outcome store := by
  intro store slack lagrangian
  have slackPoint : SlackPoint session wrapper base x s :=
    ⟨reachable.sound, slackMember, constrained, lengthX, lengthS⟩
  have point : AugmentedPoint session node base (List.replicate base.header.ncon a) y x :=
    ⟨reachable.sound, member, inForce, lengthX⟩
  have positive : 0 < a :=
    point.positive a (List.mem_replicate.2 ⟨Nat.pos_iff_ne_zero.1 constrained, rfl⟩)
  refine ⟨?_, slackPoint.outcome_objective base.repeatable⟩
  tfae_have 1 ↔ 2 := by
    rw [slackPoint.feasible_iff, slackPoint.stationary_iff positive point.lengthY]
    exact and_congr_right fun _ => and_comm
  tfae_have 2 ↔ 3 := by
    apply and_congr_right
    intro values
    rw [← point.estimate_iff positive.ne' values]
    apply and_congr_right
    intro estimate
    exact (point.returns_iff positive estimate).symm
  tfae_finish

namespace Session.Sound

variable (sound : session.Sound) (member : ball ∈ session.models)
include sound member

/-- Twice `(3, 4)` lies outside of the ball, on the ray of `(3, 4)`. -/
theorem project_shifted_ball :
    (ball.oracle.project (.vector (Vec.add [3, 4] (Vec.scale 1 [3, 4]))) none).outcome
      session.store = .ok [3, 4] := by
  have shifted : Vec.add [3, 4] (Vec.scale 1 [3, 4]) = [(6 : ℝ), 8] := by
    show [(3 : ℝ) + 3 * 1, 4 + 4 * 1] = _
    norm_num
  have square : (6 : ℝ) * 6 + 8 * 8 = 10 ^ 2 := by norm_num
  rw [shifted, sound.outcome_project_ball member square (by norm_num)]
  norm_num

/-- At zero the slope is `1 + 3 + 4 * 4` for the multipliers `(3, 4)`, and the term `20 * |x|` takes a
step along it back. -/
theorem stationary_ball : ball.Stationary session.store 1 [0] [3, 4] := by
  refine ⟨[1], [19], ?_, ?_, ?_⟩
  · rw [sound.outcome_gradient member ball.repeatable]
    show Except.ok [(0 : ℝ) + 1] = _
    norm_num
  · rw [sound.outcome_adjointProduct member]
    show Except.ok [((0 : ℝ) + 3) + 4 * 4] = _
    norm_num
  · have moved : Vec.sub [0] (Vec.scale 1 (Vec.add [1] [19])) = [(-20 : ℝ)] := by
      show [(0 : ℝ) - (1 + 19) * 1] = _
      norm_num
    unfold Model.Returns
    rw [moved, sound.outcome_proximal member, TermMeaning.proximalAt_vector one_pos rfl]
    show Except.ok [ProximableTerm.softThreshold ((1 : ℝ) * 20) (-20)] = _
    rw [ProximableTerm.softThreshold]
    norm_num

end Session.Sound

theorem AugmentedLagrangian.stationary_tfae_ball :
    ∃ (session : Session ℝ) (node : AugmentedLagrangian ℝ), session.Reachable ∧
      node.InForce session.store [1, 1] [3, 4] ∧
      (Model.slack Session.ballSlack Session.ball).Stationary session.store 1 [0, 3, 4] [3, 4] ∧
      (node.multiplierEstimate Session.ball.oracle (.vector [0]) none).outcome session.store =
        .ok [3, 4] ∧
      ∃ slope, ((Model.augmentedLagrangian node Session.ball).oracle.gradient (.vector [0])
          none).outcome session.store = .ok slope ∧
        (Model.augmentedLagrangian node Session.ball).Returns session.store 1 [0] slope := by
  obtain ⟨node, session, reachable, models, _, inForce⟩ :=
    Session.exists_augmented_ball one_pos one_pos 3 4
  have member : .augmentedLagrangian node Session.ball ∈ session.models := by
    rw [models]
    exact .head _
  have slackMember : .slack Session.ballSlack Session.ball ∈ session.models := by
    rw [models]
    exact .tail _ (.head _)
  have known : Session.ball ∈ session.models := reachable.sound.family.bases member rfl
  have lengthX : [(0 : ℝ)].length = Session.ball.header.nvar := rfl
  have lengthS : [(3 : ℝ), 4].length = Session.ball.header.ncon := rfl
  obtain ⟨equivalent, _⟩ :=
    stationary_tfae reachable member slackMember (Nat.succ_pos 1) inForce lengthX lengthS
  have values : (Session.ball.oracle.constraints (.vector [0]) none).outcome session.store =
      .ok [3, 4] := by
    rw [reachable.sound.outcome_constraints_ball known]
    norm_num
  have stationary := And.intro values (And.intro (reachable.sound.project_shifted_ball known)
    (reachable.sound.stationary_ball known))
  have slackSide := (equivalent.out 0 1).2 stationary
  have lagrangianSide := (equivalent.out 1 2).1 stationary
  exact ⟨session, node, reachable, inForce, slackSide.2, lagrangianSide.2⟩

end CompositeModels
