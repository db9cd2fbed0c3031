/-
Module: CompositeModels.Proofs.InfeasibilityGradient
Purpose: The gradient that a feasibility problem returns, for bases that project onto a convex set. It is
  the transposed Jacobian times a direction along which the loss grows, as a function of the constraint
  values. Objective and gradient add the proximal term together or not at all.
Main exports: FeasibilityPoint.outcome_infeasibilityGradient_of_direction,
  FeasibilityPoint.outcome_infeasibilityGradient_of_none, Feasibility.termAt, Feasibility.slopeAt,
  FeasibilityPoint.outcome_objective, FeasibilityPoint.outcome_gradient,
  Session.Reachable.infeasibility_gradient_is_slope
-/
import CompositeModels.Proofs.LossGrowth
import CompositeModels.Proofs.SlackElimination
import CompositeModels.Proofs.UniformPenalty

namespace CompositeModels

namespace FeasibilityPoint

/-! ### The gradient of the loss -/

section

variable {α : Type} [Elementary α] {session : Session α} {problem : Feasibility α} {base : Model α}
  {x r : List α} (point : FeasibilityPoint session problem base x)
  (residual : base.residualOutcome session.store x = .ok r)
include point residual

/-- Where the loss has a direction, the base is asked for its product with the transposed Jacobian. -/
theorem outcome_infeasibilityGradient_of_direction {d : List α}
    (direction : problem.loss.direction problem.huber r = .ok (some d)) :
    (problem.infeasibilityGradient base.oracle (.vector x) none).outcome session.store =
      (base.oracle.adjointProduct (.vector x) (.vector d) none).outcome session.store := by
  rw [point.outcome_infeasibilityGradient_eq_meaning,
    point.sound.outcome_adjointProduct point.baseMember]
  simp only [Feasibility.infeasibilityGradientMeaning, point.residualMeaning, residual, direction,
    ok_bind]

/-- Where it has none, the gradient is zero. -/
theorem outcome_infeasibilityGradient_of_none
    (direction : problem.loss.direction problem.huber r = .ok none) :
    (problem.infeasibilityGradient base.oracle (.vector x) none).outcome session.store =
      .ok (Vec.zeros base.header.nvar) := by
  have nvar : problem.header.nvar = base.header.nvar := point.length.symm.trans point.lengthX
  rw [point.outcome_infeasibilityGradient_eq_meaning, ← nvar]
  simp only [Feasibility.infeasibilityGradientMeaning, point.residualMeaning, residual, direction,
    ok_bind]
  rfl

end

end FeasibilityPoint

/-! ### The proximal term -/

namespace Feasibility

variable (problem : Feasibility ℝ)

/-- What the objective adds to the infeasibility at a point. -/
noncomputable def termAt (x : List ℝ) : ℝ :=
  if problem.withProximalTerm then problem.weight * problem.proximalDistanceMeaning x else 0

/-- What the gradient adds to that of the infeasibility at a point. -/
noncomputable def slopeAt (x : List ℝ) : List ℝ :=
  if problem.withProximalTerm then
    Vec.mul (Vec.scale problem.weight problem.scaling) (Vec.sub x problem.center)
  else Vec.zeros x.length

variable {problem}

theorem withProximalTerm_iff : problem.withProximalTerm = true ↔
    0 < problem.weight ∧ ∀ s ∈ problem.scaling, 0 < s := by
  rw [withProximalTerm, Bool.and_eq_true, decide_eq_true_iff, Vec.allPositive, List.all_eq_true]
  simp only [decide_eq_true_iff]

theorem termAt_of_inactive (inactive : ¬ problem.withProximalTerm = true) (x : List ℝ) :
    problem.termAt x = 0 ∧ problem.slopeAt x = Vec.zeros x.length :=
  ⟨if_neg inactive, if_neg inactive⟩

/-- The term is quadratic, with the returned slope. -/
theorem termAt_expand {m : ℕ} (lengthCenter : problem.center.length = m)
    (lengthScaling : problem.scaling.length = m) (active : problem.withProximalTerm = true)
    {x v : List ℝ} (lengthX : x.length = m) (lengthV : v.length = m) :
    problem.termAt v = problem.termAt x + Vec.dot (problem.slopeAt x) (Vec.sub v x) +
      problem.weight / 2 *
        Vec.dot problem.scaling (Vec.mul (Vec.sub v x) (Vec.sub v x)) := by
  simp only [termAt, slopeAt, if_pos active, proximalDistanceMeaning, Scalar.half_real]
  obtain ⟨center, sameCenter⟩ := Vec.exists_eq_ofFn lengthCenter
  obtain ⟨scaling, sameScaling⟩ := Vec.exists_eq_ofFn lengthScaling
  obtain ⟨x, rfl⟩ := Vec.exists_eq_ofFn lengthX
  obtain ⟨v, rfl⟩ := Vec.exists_eq_ofFn lengthV
  simp only [sameCenter, sameScaling, Vec.sub_ofFn, Vec.mul_ofFn, Vec.scale_ofFn, Vec.total_ofFn,
    Vec.dot_ofFn, Finset.mul_sum]
  rw [← Finset.sum_add_distrib, ← Finset.sum_add_distrib]
  exact Finset.sum_congr rfl fun i _ => by ring

end Feasibility

namespace FeasibilityPoint

variable {session : Session ℝ} {problem : Feasibility ℝ} {base : Model ℝ} {x : List ℝ}
  (point : FeasibilityPoint session problem base x)
include point

theorem outcome_objective :
    ((Model.feasibility problem base).oracle.objective (.vector x)).outcome session.store = (do
      let value ← (problem.infeasibility base.oracle (.vector x)).outcome session.store
      return value + problem.termAt x) := by
  rw [point.sound.outcome_objective point.member (Model.repeatable _), point.outcome_infeasibility,
    SmoothMeaning.objectiveAt_vector point.length]
  simp only [Model.smoothMeaning, Feasibility.smoothMeaning, Feasibility.objectiveMeaning,
    Feasibility.infeasibilityMeaning, point.residualMeaning, Feasibility.termAt, bind_assoc, pure_bind]
  by_cases active : problem.withProximalTerm = true
  · simp only [if_pos active]
  · simp only [if_neg active, add_zero]

theorem outcome_gradient :
    ((Model.feasibility problem base).oracle.gradient (.vector x) none).outcome session.store = (do
      let slope ← (problem.infeasibilityGradient base.oracle (.vector x) none).outcome session.store
      return Vec.add slope (problem.slopeAt x)) := by
  rw [point.sound.outcome_gradient point.member (Model.repeatable _),
    SmoothMeaning.gradientAt_vector point.length]
  simp only [Model.smoothMeaning, Feasibility.smoothMeaning, Feasibility.gradientMeaning]
  rw [← point.outcome_infeasibilityGradient_eq_meaning]
  cases returned : (problem.infeasibilityGradient base.oracle (.vector x) none).outcome
      session.store with
  | error cause => rfl
  | ok slope =>
      rw [ok_bind, ok_bind]
      by_cases active : problem.withProximalTerm = true
      · rw [if_pos active, Feasibility.slopeAt, if_pos active]
      · have length := point.length_infeasibilityGradient returned
        rw [if_neg active, (Feasibility.termAt_of_inactive active x).2,
          Vec.add_zeros (length.trans point.lengthX.symm)]

end FeasibilityPoint

/-! ### The slope of the infeasibility -/

/-- In every session, for a base that projects onto a convex set: the gradient of the infeasibility is the
transposed Jacobian times a direction `d`, or the zero vector where the norm of the residual is the loss and
vanishes. As a function of the constraint values the loss grows along `d` at least, and if it is the squared
or the Huber loss, by half the squared step times its scale more at most. Objective and gradient add a term
and its slope. Both are zero unless the weight and all scales of the proximal term are above zero, and then
the term is quadratic with this slope. -/
theorem Session.Reachable.infeasibility_gradient_is_slope {session : Session ℝ}
    (reachable : session.Reachable) {problem : Feasibility ℝ} {base : Model ℝ}
    (member : .feasibility problem base ∈ session.models) (smooth : problem.loss ≠ .abs)
    (threshold : 0 < problem.huber.threshold) (scale : 0 < problem.huber.scale)
    {S : Set (Fin base.header.ncon → ℝ)} (convex : Convex ℝ S)
    {P : (Fin base.header.ncon → ℝ) → Fin base.header.ncon → ℝ}
    (nearest : ∀ v, IsNearest S v (P v)) (projects : base.ProjectsAs session.store P) {x : List ℝ}
    (lengthX : x.length = base.header.nvar) {c : Fin base.header.ncon → ℝ}
    (constraints : (base.oracle.constraints (.vector x) none).outcome session.store =
      .ok (List.ofFn c))
    (away : problem.loss = .euclid →
      residualNorm P c = 0 ∨ Scalar.smallestNormal < residualNorm P c) :
    (problem.infeasibility base.oracle (.vector x)).outcome session.store =
      .ok (lossAt problem.loss problem.huber P c) ∧
    (∃ d : Fin base.header.ncon → ℝ,
      (problem.loss = .euclid ∧ residualNorm P c = 0 → d = 0 ∧
        (problem.infeasibilityGradient base.oracle (.vector x) none).outcome session.store =
          .ok (Vec.zeros base.header.nvar)) ∧
      (¬ (problem.loss = .euclid ∧ residualNorm P c = 0) →
        (problem.infeasibilityGradient base.oracle (.vector x) none).outcome session.store =
          (base.oracle.adjointProduct (.vector x) (.vector (List.ofFn d)) none).outcome
            session.store) ∧
      (∀ u, lossAt problem.loss problem.huber P c + ∑ i, d i * (u i - c i) ≤
        lossAt problem.loss problem.huber P u) ∧
      (problem.loss = .euclidSquared → ∀ u, lossAt problem.loss problem.huber P u ≤
        lossAt problem.loss problem.huber P c + ∑ i, d i * (u i - c i) +
          1 / 2 * ∑ i, (u i - c i) ^ 2) ∧
      (problem.loss = .huber → ∀ u, lossAt problem.loss problem.huber P u ≤
        lossAt problem.loss problem.huber P c + ∑ i, d i * (u i - c i) +
          problem.huber.scale / 2 * ∑ i, (u i - c i) ^ 2)) ∧
    (∀ v : List ℝ, v.length = base.header.nvar →
      ((Model.feasibility problem base).oracle.objective (.vector v)).outcome session.store = (do
        let value ← (problem.infeasibility base.oracle (.vector v)).outcome session.store
        return value + problem.termAt v) ∧
      ((Model.feasibility problem base).oracle.gradient (.vector v) none).outcome session.store = (do
        let slope ←
          (problem.infeasibilityGradient base.oracle (.vector v) none).outcome session.store
        return Vec.add slope (problem.slopeAt v))) ∧
    (¬ (0 < problem.weight ∧ ∀ s ∈ problem.scaling, 0 < s) →
      ∀ v, problem.termAt v = 0 ∧ problem.slopeAt v = Vec.zeros v.length) ∧
    ((0 < problem.weight ∧ ∀ s ∈ problem.scaling, 0 < s) →
      ∀ v w : List ℝ, v.length = base.header.nvar → w.length = base.header.nvar →
        problem.termAt w = problem.termAt v + Vec.dot (problem.slopeAt v) (Vec.sub w v) +
          problem.weight / 2 *
            Vec.dot problem.scaling (Vec.mul (Vec.sub w v) (Vec.sub w v))) := by
  have sound := reachable.sound
  have pointAt : ∀ {v : List ℝ}, v.length = base.header.nvar →
      FeasibilityPoint session problem base v :=
    fun length => ⟨sound, member, base.pointFunction, length⟩
  have point := pointAt lengthX
  have residual : base.residualOutcome session.store x = .ok (List.ofFn fun i => c i - P c i) := by
    rw [Model.residualOutcome, constraints, ok_bind, projects c, ok_bind, Vec.sub_ofFn]
    rfl
  obtain ⟨_, _, lengthCenter, lengthScaling⟩ := sound.family.regular member
  refine ⟨?infeasibility, ?slope, fun v length => ?term, fun inactive v => ?inactive,
    fun active v w lengthV lengthW => ?active⟩
  case infeasibility =>
    rw [point.outcome_infeasibility, residual]
    rfl
  case slope =>
    obtain ⟨d, none, some, growth⟩ :=
      Loss.exists_direction smooth convex nearest threshold scale away
    refine ⟨d, fun zero => ⟨(none zero).1, ?_⟩, fun nonzero => ?_, growth⟩
    · exact point.outcome_infeasibilityGradient_of_none residual (none zero).2
    · exact point.outcome_infeasibilityGradient_of_direction residual (some nonzero)
  case term => exact ⟨(pointAt length).outcome_objective, (pointAt length).outcome_gradient⟩
  case inactive =>
    exact Feasibility.termAt_of_inactive (fun on => inactive (Feasibility.withProximalTerm_iff.1 on)) v
  case active =>
    exact Feasibility.termAt_expand lengthCenter lengthScaling
      (Feasibility.withProximalTerm_iff.2 active) lengthV lengthW

/-! ### The ball problem -/

namespace Session

/-- The feasibility problem with the Huber loss and an active proximal term. -/
noncomputable def ballHuber (serial : ℕ) : Feasibility ℝ :=
  ⟨⟨serial, ⟨1, 0, [0], [], true, "ball-feas"⟩, true⟩, .huber, ⟨1, 1⟩, 1, false, [0], [1]⟩

theorem run_build_ballHuber (store : Store ℝ) :
    (Feasibility.build ball.header { loss := some "huber", weight := some 1 } none true).run store =
      .ok (ballHuber store.next) (store.issue 1 [.feasibilityBuilt "ball" "huber" 2 true]) := by
  have known : Loss.ofName? "huber" = some .huber := by decide
  simp [Feasibility.build, Eval.checkVectors, ball, known, Vec.allNonnegative, Vec.allPositive,
    Vec.ones, Feasibility.withProximalTerm, Header.replace, Header.make]
  rfl

/-- The problem can be built in the session with the ball. -/
theorem exists_ballHuber :
    ∃ session : Session ℝ, session.Reachable ∧
      .feasibility (ballHuber balled.store.next) ball ∈ session.models := by
  have admits : balled.Admits (.build (.feasibilityProblem ball
      { loss := some "huber", weight := some 1 } none true)) :=
    ⟨trivial, fun _ same => Option.some.inj same ▸ ball_mem_balled, trivial⟩
  exact ⟨_, reachable_balled.build admits (run_bind_of_ok (run_build_ballHuber _)), .head _⟩

/-- The vector `(5, 12)` has a distance of eight from the ball, which is beyond the threshold. -/
theorem lossAt_ball {P : (Fin 2 → ℝ) → Fin 2 → ℝ}
    (projected : P ![5, 12] = ![5 * (5 / 13), 12 * (5 / 13)]) :
    lossAt .huber ⟨1, 1⟩ P ![5, 12] = 15 / 2 := by
  have squared : residualNorm P ![5, 12] ^ 2 = 8 ^ 2 := by
    rw [residualNorm_sq, projected, Fin.sum_univ_two]
    norm_num
  have norm : residualNorm P ![5, 12] = 8 :=
    (pow_left_inj₀ (residualNorm_nonneg _ _) (by norm_num) two_ne_zero).1 squared
  show Huber.profile ⟨1, 1⟩ (residualNorm P ![5, 12]) = 15 / 2
  rw [norm, Huber.profile_eq]
  norm_num

/-- At `x = 2` the constraint values are `(5, 12)`. -/
theorem infeasibility_gradient_is_slope_ball :
    ∃ (problem : Feasibility ℝ) (session : Session ℝ) (P : (Fin 2 → ℝ) → Fin 2 → ℝ) (d : Fin 2 → ℝ),
      session.Reachable ∧
      (problem.infeasibility ball.oracle (.vector [2])).outcome session.store = .ok (15 / 2) ∧
      (problem.infeasibilityGradient ball.oracle (.vector [2]) none).outcome session.store =
        (ball.oracle.adjointProduct (.vector [2]) (.vector (List.ofFn d)) none).outcome session.store ∧
      (∀ u, 15 / 2 + ∑ i, d i * (u i - ![5, 12] i) ≤ lossAt .huber ⟨1, 1⟩ P u ∧
        lossAt .huber ⟨1, 1⟩ P u ≤ 15 / 2 + ∑ i, d i * (u i - ![5, 12] i) +
          1 / 2 * ∑ i, (u i - ![5, 12] i) ^ 2) ∧
      ((Model.feasibility problem ball).oracle.objective (.vector [2])).outcome session.store =
        .ok (15 / 2 + 2) := by
  obtain ⟨session, reachable, member⟩ := exists_ballHuber
  have sound := reachable.sound
  have known : ball ∈ session.models := sound.family.bases member rfl
  obtain ⟨P, projects, nearest⟩ := (sound.projectsOnto_ball known).exists_map
  have square : (5 : ℝ) * 5 + 12 * 12 = 13 ^ 2 := by norm_num
  have returned := (projects ![5, 12]).symm.trans
    (sound.outcome_project_ball known square (by norm_num))
  have value : lossAt .huber ⟨1, 1⟩ P ![5, 12] = 15 / 2 :=
    lossAt_ball (List.ofFn_injective (Except.ok.inj returned))
  obtain ⟨infeasibility, ⟨d, _, direction, lower, _, upper⟩, term, _⟩ :=
    reachable.infeasibility_gradient_is_slope member (fun other => by cases other) one_pos one_pos
      (convex_centeredBall 5) nearest projects (x := [2]) rfl
      (sound.outcome_constraints_ball_two known) (fun other => by cases other)
  have infeasibility : ((ballHuber balled.store.next).infeasibility ball.oracle
      (.vector [2])).outcome session.store = .ok (15 / 2) :=
    infeasibility.trans (congrArg Except.ok value)
  have added : (ballHuber balled.store.next).termAt [2] = 2 := by
    have active : (ballHuber balled.store.next).withProximalTerm = true :=
      Feasibility.withProximalTerm_iff.2 ⟨one_pos, by simp [ballHuber]⟩
    rw [Feasibility.termAt, if_pos active]
    norm_num [ballHuber, Feasibility.proximalDistanceMeaning, Vec.sub, Vec.mul, Vec.total_eq_sum,
      Scalar.half_real]
  have along := direction (by rintro ⟨other, _⟩; cases other)
  refine ⟨_, session, P, d, reachable, infeasibility, along, fun u => ?_, ?_⟩
  · rw [← value]
    exact ⟨lower u, upper rfl u⟩
  · rw [(term [2] rfl).1, infeasibility, ok_bind, added]
    rfl

end Session

end CompositeModels
