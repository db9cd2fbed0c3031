/-
Module: CompositeModels.Proofs.InfeasibilityMeasures
Purpose: What the feasibility problems of one base say about a point. Whatever their losses are, they find
  the same residual there, so they agree about which points are feasible and about the largest violation,
  and their infeasibilities are ordered. Where the constraint values are their own projection the gradient
  is zero.
Main exports: FeasibilityPoint.outcome_infeasibilityGradient_of_zero,
  Session.Reachable.infeasibility_measures
-/
import CompositeModels.Proofs.InfeasibilityGradient
import CompositeModels.Proofs.LossOrder

namespace CompositeModels

namespace FeasibilityPoint

variable {session : Session ℝ} {problem : Feasibility ℝ} {base : Model ℝ} {x : List ℝ}
  (point : FeasibilityPoint session problem base x)
include point

/-- Where the residual is zero, the gradient is zero, if the base pulls the zero vector back to zero. -/
theorem outcome_infeasibilityGradient_of_zero (threshold : 0 < problem.huber.threshold)
    (residual : base.residualOutcome session.store x = .ok (Vec.zeros base.header.ncon))
    (adjoint : (base.oracle.adjointProduct (.vector x) (.vector (Vec.zeros base.header.ncon))
      none).outcome session.store = .ok (Vec.zeros base.header.nvar)) :
    (problem.infeasibilityGradient base.oracle (.vector x) none).outcome session.store =
      .ok (Vec.zeros base.header.nvar) := by
  rw [Vec.zeros_eq_ofFn] at residual
  obtain ⟨d, direction, zero⟩ := problem.loss.exists_isDirection threshold
    fun _ : Fin base.header.ncon => (0 : ℝ)
  have zero : d = fun _ => 0 := zero rfl
  rcases direction with given | ⟨withheld, _⟩
  · rw [point.outcome_infeasibilityGradient_of_direction residual given, zero, ← Vec.zeros_eq_ofFn]
    exact adjoint
  · exact point.outcome_infeasibilityGradient_of_none residual withheld

end FeasibilityPoint

/-- In every session, for every base and every point at which it has constraint values `c` with a
projection `z`: all feasibility problems of the base measure the same residual `c - z`, and so its largest
absolute value is what each of them calls the violation. The infeasibility is never negative, and it
is zero exactly if the violation is, which is so exactly if `z` is `c`, as it is without constraints. There the
gradient is zero if the base pulls the zero vector back to zero. The infeasibilities for the four losses
and the violation are ordered, and the Huber loss is the least cost of splitting the norm. -/
theorem Session.Reachable.infeasibility_measures {session : Session ℝ}
    (reachable : session.Reachable) {base : Model ℝ} (known : base ∈ session.models)
    {x c z : List ℝ} (lengthX : x.length = base.header.nvar)
    (constraints : (base.oracle.constraints (.vector x) none).outcome session.store = .ok c)
    (project : (base.oracle.project (.vector c) none).outcome session.store = .ok z) :
    let r := Vec.sub c z
    (∀ problem, .feasibility problem base ∈ session.models →
      (problem.infeasibility base.oracle (.vector x)).outcome session.store =
        .ok (problem.loss.value problem.huber r) ∧
      (problem.violation base.oracle (.vector x)).outcome session.store = .ok (Vec.maxAbs r) ∧
      0 ≤ problem.loss.value problem.huber r ∧
      (problem.loss.value problem.huber r = 0 ↔ Vec.maxAbs r = 0) ∧
      (z = c →
        (base.oracle.adjointProduct (.vector x) (.vector (Vec.zeros base.header.ncon)) none).outcome
          session.store = .ok (Vec.zeros base.header.nvar) →
        (problem.infeasibilityGradient base.oracle (.vector x) none).outcome session.store =
          .ok (Vec.zeros base.header.nvar))) ∧
    (Vec.maxAbs r = 0 ↔ z = c) ∧
    (base.header.ncon = 0 → z = c) ∧
    ∀ huber : Huber ℝ, 0 < huber.threshold → 0 < huber.scale →
      Vec.maxAbs r ≤ Loss.euclid.value huber r ∧
      Loss.euclid.value huber r ≤ Loss.abs.value huber r ∧
      Loss.abs.value huber r ≤ base.header.ncon * Vec.maxAbs r ∧
      Loss.euclidSquared.value huber r = Loss.euclid.value huber r ^ 2 / 2 ∧
      IsLeast
        ((fun t => huber.scale *
            ((Loss.euclid.value huber r - t) ^ 2 / 2 + huber.threshold * t)) ''
          Set.Icc 0 (Loss.euclid.value huber r))
        (Loss.huber.value huber r) ∧
      Loss.huber.value huber r ≤ huber.scale * Loss.euclidSquared.value huber r ∧
      Loss.huber.value huber r ≤
        huber.threshold * huber.scale * Loss.euclid.value huber r ∧
      (Loss.euclid.value huber r = huber.threshold →
        Loss.huber.value huber r = Scalar.half * huber.scale *
          (Loss.euclid.value huber r * Loss.euclid.value huber r) ∧
        Loss.huber.value huber r = huber.threshold * huber.scale *
          (Loss.euclid.value huber r - Scalar.half * huber.threshold)) := by
  intro r
  have sound := reachable.sound
  have lengthC := sound.length_constraints known constraints
  have lengthZ := sound.length_project known project
  have residual : base.residualOutcome session.store x = .ok r :=
    Model.residualOutcome_eq constraints project
  have lengthR : r.length = base.header.ncon := by simp [r, lengthC, lengthZ]
  have zeroResidual : r = Vec.zeros base.header.ncon ↔ c = z := Vec.sub_eq_zeros_iff lengthC lengthZ
  clear_value r
  obtain ⟨u, rfl⟩ := Vec.exists_eq_ofFn lengthR
  refine ⟨fun problem member => ?problem, ?same, fun unconstrained => ?unconstrained,
    fun huber threshold scale => ?order⟩
  case problem =>
    have point : FeasibilityPoint session problem base x :=
      ⟨sound, member, base.pointFunction, lengthX⟩
    have checked : problem.Checked := reachable.configured _ member
    refine ⟨?_, ?_, problem.loss.value_nonneg checked.threshold checked.scale u, ?_,
      fun same adjoint => ?_⟩
    · rw [point.outcome_infeasibility, residual]
      rfl
    · rw [point.outcome_violation, residual]
      rfl
    · rw [problem.loss.value_eq_zero_iff checked.threshold checked.scale, Vec.maxAbs_eq_zero_iff]
    · rw [zeroResidual.2 same.symm] at residual
      exact point.outcome_infeasibilityGradient_of_zero checked.threshold residual adjoint
  case same => rw [Vec.maxAbs_eq_zero_iff, Vec.norm_eq_zero_iff lengthR, zeroResidual, eq_comm]
  case unconstrained =>
    have emptyC : c = [] := List.eq_nil_of_length_eq_zero (lengthC.trans unconstrained)
    have emptyZ : z = [] := List.eq_nil_of_length_eq_zero (lengthZ.trans unconstrained)
    rw [emptyC, emptyZ]
  case order =>
    have nonneg : 0 ≤ Loss.euclid.value huber (List.ofFn u) := Vec.norm_nonneg _
    have least := Huber.profile_isLeast threshold scale nonneg
    have squared := Loss.value_euclidSquared huber (List.ofFn u)
    refine ⟨Vec.maxAbs_le_norm u, Vec.norm_le_total_abs u, Vec.total_abs_le_maxAbs u, squared, least,
      ?_, ?_, fun atThreshold => Huber.value_of_norm_eq atThreshold⟩
    · -- Nothing is split off.
      refine (least.2 ⟨0, ⟨le_refl 0, nonneg⟩, rfl⟩).trans_eq ?_
      rw [squared]
      show huber.scale * ((Vec.norm (List.ofFn u) - 0) ^ 2 / 2 + huber.threshold * 0) = _
      ring
    · -- Everything is split off.
      refine (least.2 ⟨_, ⟨nonneg, le_refl _⟩, rfl⟩).trans_eq ?_
      ring

/-! ### The ball problem -/

namespace Session

/-- A feasibility problem of the ball problem can be built with any loss. -/
theorem exists_feasibility_ball (loss : Loss) :
    ∃ (problem : Feasibility ℝ) (session : Session ℝ), session.Reachable ∧
      .feasibility problem ball ∈ session.models ∧ problem.loss = loss := by
  obtain ⟨session, reachable, models, _⟩ := Feasibility.exists_ofLoss reachable_balled
    ball_mem_balled (le_refl 1) rfl loss ⟨1, 1⟩ one_pos one_pos
  refine ⟨.ofLoss ball.header loss ⟨1, 1⟩ balled.store.next, session, reachable, ?_, rfl⟩
  rw [models]
  exact .head _

variable {session : Session ℝ} (sound : session.Sound) (member : ball ∈ session.models)
include sound member

theorem Sound.outcome_project_ball_two :
    (ball.oracle.project (.vector [5, 12]) none).outcome session.store = .ok [25 / 13, 60 / 13] := by
  have square : (5 : ℝ) * 5 + 12 * 12 = 13 ^ 2 := by norm_num
  rw [sound.outcome_project_ball member square (by norm_num)]
  norm_num

omit sound member

theorem maxAbs_ball_two : Vec.maxAbs (Vec.sub [5, 12] [25 / 13, 60 / 13] : List ℝ) = 96 / 13 := by
  norm_num [Vec.maxAbs, Vec.abs, Vec.sub, Scalar.largerOf_real, Scalar.abs]

theorem total_abs_ball_two :
    Vec.total (Vec.abs (Vec.sub [5, 12] [25 / 13, 60 / 13] : List ℝ)) = 136 / 13 := by
  norm_num [Vec.total, Vec.abs, Vec.sub, Scalar.abs]

/-- At `x = 2` the constraint values are `(5, 12)`, and the residual is `(40/13, 96/13)`. -/
theorem infeasibility_measures_ball :
    ∃ (problem : Feasibility ℝ) (session : Session ℝ), session.Reachable ∧
      .feasibility problem ball ∈ session.models ∧
      (problem.infeasibility ball.oracle (.vector [2])).outcome session.store = .ok (136 / 13) ∧
      (problem.violation ball.oracle (.vector [2])).outcome session.store = .ok (96 / 13) ∧
      Loss.huber.value (⟨1, 1⟩ : Huber ℝ) (Vec.sub [5, 12] [25 / 13, 60 / 13]) ≤ 136 / 13 := by
  obtain ⟨problem, session, reachable, member, absolute⟩ := exists_feasibility_ball .abs
  have sound := reachable.sound
  have known : ball ∈ session.models := sound.family.bases member rfl
  obtain ⟨problems, _, _, ordered⟩ := reachable.infeasibility_measures known (x := [2]) rfl
    (sound.outcome_constraints_ball_two known) (sound.outcome_project_ball_two known)
  obtain ⟨infeasibility, violation, _⟩ := problems _ member
  obtain ⟨_, sum, _, _, _, _, linear, _⟩ := ordered ⟨1, 1⟩ one_pos one_pos
  have unscaled : ∀ e : ℝ, 1 * 1 * e = e := fun e => by rw [one_mul, one_mul]
  rw [absolute] at infeasibility
  refine ⟨problem, session, reachable, member, infeasibility.trans (congrArg _ total_abs_ball_two),
    violation.trans (congrArg _ maxAbs_ball_two), ?_⟩
  exact (linear.trans_eq (unscaled _)).trans (sum.trans_eq total_abs_ball_two)

end Session

end CompositeModels
