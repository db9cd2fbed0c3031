/-
Module: CompositeModels.Proofs.UniformPenalty
Purpose: With one penalty parameter `m` for all constraints and no multipliers, the augmented Lagrangian
  adds the infeasibility of its base to the objective, divided by `m`:

    L(x) = f(x) + 1/m * 0.5 * sum(r^2),   r = c(x) - proj_S(c(x))

  The feasibility problem of the base computes the same residual in its own way and keeps it. Whatever
  was asked of the two before, and whatever the projection is, their answers belong together.
Main exports: FeasibilityPoint, Model.residualOutcome, FeasibilityPoint.outcome_infeasibility,
  FeasibilityPoint.outcome_infeasibilityGradient, FeasibilityPoint.outcome_violation, UniformPoint,
  Model.AdjointHomogeneous, Session.Reachable.uniform_penalty_is_infeasibility
-/
import CompositeModels.Proofs.CacheTransparency
import CompositeModels.Proofs.Fusion

namespace CompositeModels

/-! ### Vectors -/

namespace Vec

variable {v : List ℝ} {n : ℕ}

/-- Nothing is added for multipliers that are zero. -/
theorem add_mul_zeros (hv : v.length = n) (m : ℝ) :
    add v (mul (List.replicate n m) (zeros n)) = v := by
  obtain ⟨u, rfl⟩ := exists_eq_ofFn hv
  rw [mul_replicate (length_zeros n), zeros_eq_ofFn, scale_ofFn, add_ofFn]
  simp

theorem total_mul_mul_zeros (m : ℝ) :
    total (mul (mul (List.replicate n m) (zeros n)) (zeros n)) = 0 := by
  rw [mul_replicate (length_zeros n), zeros_eq_ofFn, scale_ofFn, mul_ofFn, total_ofFn]
  simp

theorem div_replicate (hv : v.length = n) (m : ℝ) : div v (List.replicate n m) = divide v m := by
  obtain ⟨u, rfl⟩ := exists_eq_ofFn hv
  rw [← List.ofFn_const, div_ofFn, divide_ofFn]

theorem divide_eq_scale (v : List ℝ) (m : ℝ) : divide v m = scale m⁻¹ v := by
  apply List.map_congr_left
  intro a _
  exact div_eq_mul_inv a m

theorem dot_divide (hv : v.length = n) (m : ℝ) : dot v (divide v m) = dot v v / m := by
  obtain ⟨u, rfl⟩ := exists_eq_ofFn hv
  rw [divide_ofFn, dot_ofFn, dot_ofFn, Finset.sum_div]
  apply Finset.sum_congr rfl
  intro i _
  exact (mul_div_assoc (u i) (u i) m).symm

/-- The largest absolute value is divided along with the entries. -/
theorem maxAbs_divide (v : List ℝ) {m : ℝ} (positive : 0 < m) :
    maxAbs (divide v m) = maxAbs v / m := by
  have folded : ∀ (first : ℝ), (abs (divide v m)).foldl Scalar.largerOf (first / m) =
      (abs v).foldl Scalar.largerOf first / m := by
    induction v with
    | nil => exact fun first => rfl
    | cons a rest ih =>
        intro first
        have step : Scalar.largerOf (first / m) |a / m| = Scalar.largerOf first |a| / m := by
          rw [Scalar.largerOf_real, Scalar.largerOf_real, abs_div, abs_of_pos positive,
            max_div_div_right positive.le]
        show (abs (divide rest m)).foldl Scalar.largerOf (Scalar.largerOf (first / m) |a / m|) = _
        rw [step]
        exact ih _
  have fromZero := folded 0
  rw [zero_div] at fromZero
  exact fromZero

end Vec

/-! ### The residual -/

section

variable {α : Type} [Elementary α]

/-- The residual of a model at a point: its constraint values minus their projection. -/
def Model.residualOutcome (model : Model α) (store : Store α) (x : List α) :
    Except (Error α) (List α) := do
  let values ← (model.oracle.constraints (.vector x) none).outcome store
  let projected ← (model.oracle.project (.vector values) none).outcome store
  return Vec.sub values projected

theorem Model.residualOutcome_eq {model : Model α} {store : Store α} {x c z : List α}
    (constraints : (model.oracle.constraints (.vector x) none).outcome store = .ok c)
    (project : (model.oracle.project (.vector c) none).outcome store = .ok z) :
    model.residualOutcome store x = .ok (Vec.sub c z) := by
  rw [residualOutcome, constraints, ok_bind, project]
  rfl

theorem Session.Sound.length_residualOutcome {session : Session α} (sound : session.Sound)
    {model : Model α} (member : model ∈ session.models) {x r : List α}
    (returned : model.residualOutcome session.store x = .ok r) : r.length = model.header.ncon := by
  obtain ⟨values, valuesEq, returned⟩ := exists_of_bind_eq_ok returned
  obtain ⟨projected, projectedEq, returned⟩ := exists_of_bind_eq_ok returned
  cases returned
  have lengthValues := sound.length_constraints member valuesEq
  have lengthProjected := sound.length_project member projectedEq
  simp [lengthValues, lengthProjected]

/-- A feasibility problem of a session, and a point of its base. -/
structure FeasibilityPoint (session : Session α) (problem : Feasibility α) (base : Model α)
    (x : List α) : Prop where
  sound : session.Sound
  member : .feasibility problem base ∈ session.models
  pointFunction : base.PointFunction
  lengthX : x.length = base.header.nvar

namespace FeasibilityPoint

variable {session : Session α} {problem : Feasibility α} {base : Model α} {x : List α}
  (point : FeasibilityPoint session problem base x)
include point

theorem baseMember : base ∈ session.models :=
  point.sound.family.bases point.member rfl

theorem length : x.length = problem.header.nvar :=
  point.lengthX.trans (point.sound.family.regular point.member).1.symm

/-- Whatever the problem keeps, it finds the residual of its base. -/
theorem residualMeaning :
    Feasibility.residualMeaning base.constraintMeaning x = base.residualOutcome session.store x := by
  simp only [Feasibility.residualMeaning, Model.residualOutcome,
    point.sound.outcome_constraints point.baseMember, point.sound.outcome_project point.baseMember]

theorem outcome_infeasibility :
    (problem.infeasibility base.oracle (.vector x)).outcome session.store = (do
      let r ← base.residualOutcome session.store x
      return problem.loss.value problem.huber r) := by
  have answers := Feasibility.answers_infeasibility (x := .vector x)
    (Feasibility.answers_residual point.sound.family point.member) session.store point.sound.ready
  rw [answers.agrees point.pointFunction, ← point.residualMeaning]
  simp only [Feasibility.infeasibilityAt, Tensor.shape_vector, Tensor.entries_vector, point.length,
    checkVectors_self]
  rfl

theorem outcome_violation :
    (problem.violation base.oracle (.vector x)).outcome session.store = (do
      let r ← base.residualOutcome session.store x
      return Vec.maxAbs r) := by
  have answers := Feasibility.answers_violation (x := .vector x)
    (Feasibility.answers_residual point.sound.family point.member) session.store point.sound.ready
  rw [answers.agrees point.pointFunction, ← point.residualMeaning]
  simp only [Feasibility.violationAt, Tensor.shape_vector, Tensor.entries_vector, point.length,
    checkVectors_self]
  rfl

/-- Whatever the problem keeps, its gradient is that of the residual of its base. -/
theorem answers_infeasibilityGradient :
    Eval.AnswersAt (Store.Ready session.models session.store.penalties) base.PointFunction
      (problem.infeasibilityGradient base.oracle (.vector x) none)
      (·.length = problem.header.nvar)
      (problem.infeasibilityGradientAt base.constraintMeaning (.vector x) none) session.store :=
  Feasibility.answers_infeasibilityGradient point.sound.family
    (Store.Ready.steady point.sound.family) point.member
    (Feasibility.answers_residual point.sound.family point.member) rfl none session.store
    point.sound.ready

theorem length_infeasibilityGradient {g : List α}
    (returned : (problem.infeasibilityGradient base.oracle (.vector x) none).outcome session.store =
      .ok g) : g.length = base.header.nvar := by
  rw [point.answers_infeasibilityGradient.good g returned, ← point.length, point.lengthX]

theorem outcome_infeasibilityGradient_eq_meaning :
    (problem.infeasibilityGradient base.oracle (.vector x) none).outcome session.store =
      problem.infeasibilityGradientMeaning base.constraintMeaning x := by
  rw [point.answers_infeasibilityGradient.agrees point.pointFunction]
  simp only [Feasibility.infeasibilityGradientAt, Tensor.shape_vector, Tensor.entries_vector,
    point.length, Oracle.shape_buffer_none, checkVectors_self_self]
  rfl

/-- The squared loss grows in the direction of the residual itself. -/
theorem outcome_infeasibilityGradient (squared : problem.loss = .euclidSquared) :
    (problem.infeasibilityGradient base.oracle (.vector x) none).outcome session.store = (do
      let r ← base.residualOutcome session.store x
      (base.oracle.adjointProduct (.vector x) (.vector r) none).outcome session.store) := by
  rw [point.outcome_infeasibilityGradient_eq_meaning, ← point.residualMeaning]
  simp only [Feasibility.infeasibilityGradientMeaning, squared,
    point.sound.outcome_adjointProduct point.baseMember]
  rfl

end FeasibilityPoint

end

/-! ### Uniform parameters -/

/-- The product with the transposed Jacobian is homogeneous in the vector. -/
def Model.AdjointHomogeneous (model : Model ℝ) (store : Store ℝ) : Prop :=
  ∀ {x w : List ℝ} (a : ℝ), x.length = model.header.nvar → w.length = model.header.ncon →
    (model.oracle.adjointProduct (.vector x) (.vector (Vec.scale a w)) none).outcome store = (do
      let product ← (model.oracle.adjointProduct (.vector x) (.vector w) none).outcome store
      return Vec.scale a product)

namespace AugmentedPoint

variable {session : Session ℝ} {node : AugmentedLagrangian ℝ} {base : Model ℝ} {x : List ℝ} {m : ℝ}
  (point : AugmentedPoint session node base (List.replicate base.header.ncon m)
    (Vec.zeros base.header.ncon) x)
include point

/-- The estimate is the residual divided by the parameter. -/
theorem outcome_multiplierEstimate_uniform :
    (node.multiplierEstimate base.oracle (.vector x) none).outcome session.store = (do
      let r ← base.residualOutcome session.store x
      return Vec.divide r m) := by
  rw [point.outcome_multiplierEstimate, Model.residualOutcome]
  cases values : (base.oracle.constraints (.vector x) none).outcome session.store with
  | error cause => rfl
  | ok c =>
      have lengthC := point.sound.length_constraints point.baseMember values
      simp only [ok_bind, Vec.add_mul_zeros lengthC]
      cases projected : (base.oracle.project (.vector c) none).outcome session.store with
      | error cause => rfl
      | ok z =>
          have lengthZ := point.sound.length_project point.baseMember projected
          have lengthR : (Vec.sub c z).length = base.header.ncon := by simp [lengthC, lengthZ]
          simp only [ok_bind, pure_bind, Vec.div_replicate lengthR]

/-- The penalty term is half the squared residual, divided by the parameter. -/
theorem outcome_objective_uniform :
    ((Model.augmentedLagrangian node base).oracle.objective (.vector x)).outcome session.store = (do
      let value ← (base.oracle.objective (.vector x)).outcome session.store
      let r ← base.residualOutcome session.store x
      return value + Scalar.half * Vec.dot r r / m) := by
  rw [point.outcome_objective base.repeatable]
  cases (base.oracle.objective (.vector x)).outcome session.store with
  | error cause => rfl
  | ok value =>
      rw [Model.residualOutcome]
      cases values : (base.oracle.constraints (.vector x) none).outcome session.store with
      | error cause => rfl
      | ok c =>
          have lengthC := point.sound.length_constraints point.baseMember values
          simp only [ok_bind, Vec.add_mul_zeros lengthC]
          cases projected : (base.oracle.project (.vector c) none).outcome session.store with
          | error cause => rfl
          | ok z =>
              have lengthZ := point.sound.length_project point.baseMember projected
              have lengthR : (Vec.sub c z).length = base.header.ncon := by simp [lengthC, lengthZ]
              simp only [ok_bind, pure_bind, Vec.div_replicate lengthR, Vec.total_mul_mul_zeros,
                Vec.dot_divide lengthR, mul_zero, sub_zero, mul_div_assoc]

end AugmentedPoint

/-- For every base with constraints, whatever its projection is, and in every session: the augmented
Lagrangian with one parameter `m` and no multipliers adds the infeasibility divided by `m` to the
objective, and its gradient is the sum of the gradients with the same factor, if the product with the
transposed Jacobian is homogeneous. The fused evaluation gives both, and the largest multiplier estimate is
the violation divided by `m`. One side fails whenever the other does. -/
theorem Session.Reachable.uniform_penalty_is_infeasibility {session : Session ℝ}
    (reachable : session.Reachable) {node : AugmentedLagrangian ℝ} {problem : Feasibility ℝ}
    {base : Model ℝ} (augmented : .augmentedLagrangian node base ∈ session.models)
    (feasibility : .feasibility problem base ∈ session.models)
    (squared : problem.loss = .euclidSquared) {m : ℝ} (positive : 0 < m)
    (inForce : node.InForce session.store (List.replicate base.header.ncon m)
      (Vec.zeros base.header.ncon))
    (homogeneous : base.AdjointHomogeneous session.store) {x : List ℝ}
    (hx : x.length = base.header.nvar) :
    ((Model.augmentedLagrangian node base).oracle.objective (.vector x)).outcome session.store = (do
      let value ← (base.oracle.objective (.vector x)).outcome session.store
      let infeasibility ← (problem.infeasibility base.oracle (.vector x)).outcome session.store
      return value + infeasibility / m) ∧
    (∀ content,
      ((Model.augmentedLagrangian node base).oracle.gradient (.vector x) none).outcome
          session.store = .ok content ↔
        ∃ slope growth, (base.oracle.gradient (.vector x) none).outcome session.store = .ok slope ∧
          (problem.infeasibilityGradient base.oracle (.vector x) none).outcome session.store =
            .ok growth ∧
          content = Vec.add slope (Vec.divide growth m)) ∧
    Joint
      (((Model.augmentedLagrangian node base).oracle.objectiveGradient (.vector x) none).outcome
        session.store)
      (((Model.augmentedLagrangian node base).oracle.objective (.vector x)).outcome session.store)
      (((Model.augmentedLagrangian node base).oracle.gradient (.vector x) none).outcome
        session.store) ∧
    (do
      let estimate ← (node.multiplierEstimate base.oracle (.vector x) none).outcome session.store
      return Vec.maxAbs estimate) = (do
      let violation ← (problem.violation base.oracle (.vector x)).outcome session.store
      return violation / m) := by
  have sound := reachable.sound
  have point : AugmentedPoint session node base (List.replicate base.header.ncon m)
      (Vec.zeros base.header.ncon) x := ⟨sound, augmented, inForce, hx⟩
  have residualPoint : FeasibilityPoint session problem base x :=
    ⟨sound, feasibility, base.pointFunction, hx⟩
  refine ⟨?_, ?_, ?_, ?_⟩
  · rw [point.outcome_objective_uniform, residualPoint.outcome_infeasibility, squared]
    simp only [Loss.value, bind_assoc, pure_bind]
  · intro content
    rw [point.outcome_gradient base.repeatable, point.outcome_multiplierEstimate_uniform,
      residualPoint.outcome_infeasibilityGradient squared]
    cases residual : base.residualOutcome session.store x with
    | error cause =>
        constructor
        · intro returned
          cases returned
        · rintro ⟨slope, growth, _, failed, _⟩
          cases failed
    | ok r =>
        have length := sound.length_residualOutcome point.baseMember residual
        -- The estimate is a multiple of the residual, and so are the products with the two.
        simp only [ok_bind, pure_bind, Vec.divide_eq_scale, homogeneous m⁻¹ hx length]
        constructor
        · intro returned
          obtain ⟨slope, gradient, returned⟩ := exists_of_bind_eq_ok returned
          obtain ⟨correction, scaled, same⟩ := exists_of_bind_eq_ok returned
          obtain ⟨growth, adjoint, scaledSame⟩ := exists_of_bind_eq_ok scaled
          cases scaledSame
          exact ⟨slope, growth, gradient, adjoint, (Except.ok.inj same).symm⟩
        · rintro ⟨slope, growth, gradient, adjoint, rfl⟩
          rw [gradient, adjoint]
          rfl
  · obtain ⟨valid, meaning, holds, _, fused, realizes⟩ := Model.exists_fusedMeaning sound.family
      sound.ready augmented (.vector x)
    rw [(realizes.objectiveGradient none _ holds).agrees trivial,
      (realizes.objective _ holds).agrees trivial, (realizes.gradient none _ holds).agrees trivial]
    exact fused.objectiveGradientAt (.vector x) none
  · rw [point.outcome_multiplierEstimate_uniform, residualPoint.outcome_violation]
    simp only [bind_assoc, pure_bind, Vec.maxAbs_divide _ positive]

/-! ### The ball problem -/

namespace Session

/-- The transposed Jacobian is `(1, 4)`. -/
theorem Sound.outcome_adjointProduct_ball {session : Session ℝ} (sound : session.Sound)
    (member : ball ∈ session.models) (x a b : ℝ) :
    (ball.oracle.adjointProduct (.vector [x]) (.vector [a, b]) none).outcome session.store =
      .ok [0 + a + b * 4] := by
  rw [sound.outcome_adjointProduct member]
  rfl

/-- The product with the transposed Jacobian is linear. -/
theorem Sound.adjointHomogeneous_ball {session : Session ℝ} (sound : session.Sound)
    (member : ball ∈ session.models) : ball.AdjointHomogeneous session.store := by
  have product := sound.outcome_adjointProduct_ball member
  intro x w a hx hw
  obtain ⟨x, rfl⟩ := List.length_eq_one_iff.1 hx
  obtain ⟨b, c, rfl⟩ := List.length_eq_two.1 hw
  have scaled : Vec.scale a [b, c] = [b * a, c * a] := rfl
  rw [scaled, product, product]
  have same : 0 + b * a + c * a * 4 = (0 + b + c * 4) * a := by ring
  rw [same]
  rfl

/-- Both reformulations of the ball problem, at `x = 2` and with the parameter four for both constraints.
The constraint values are `(5, 12)`, at a distance of eight from the ball, so the infeasibility is 32 and
the augmented Lagrangian is eight above the objective. -/
theorem uniform_penalty_is_infeasibility_ball :
    ∃ (node : AugmentedLagrangian ℝ) (problem : Feasibility ℝ) (session : Session ℝ),
      session.Reachable ∧
      (problem.infeasibility ball.oracle (.vector [2])).outcome session.store = .ok 32 ∧
      ((Model.augmentedLagrangian node ball).oracle.objective (.vector [2])).outcome session.store =
        .ok (2 + 32 / 4) := by
  obtain ⟨node, later, reachable, models, _, inForce⟩ :=
    exists_augmented_ball (by norm_num : (0 : ℝ) < 4) (by norm_num : (0 : ℝ) < 4) 0 0
  have known : ball ∈ later.models := by
    rw [models]
    exact .tail _ ball_mem_balled
  obtain ⟨session, lastReachable, lastModels, penalties⟩ :=
    Feasibility.exists_default reachable known (le_refl 1) rfl
  have sound := lastReachable.sound
  have augmented : .augmentedLagrangian node ball ∈ session.models := by
    rw [lastModels, models]
    exact .tail _ (.head _)
  have feasibility : .feasibility (.ofDefaults ball.header later.store.next) ball ∈
      session.models := by
    rw [lastModels]
    exact .head _
  have member : ball ∈ session.models := sound.family.bases augmented rfl
  have inForceLater := inForce.congr (AugmentedLagrangian.penalty_congr penalties)
  have objective := sound.outcome_objective_ball member 2
  have infeasibility : (Feasibility.infeasibility (.ofDefaults ball.header later.store.next)
      ball.oracle (.vector [2])).outcome session.store = .ok 32 := by
    have point : FeasibilityPoint session (.ofDefaults ball.header later.store.next) ball [2] :=
      ⟨sound, feasibility, ball.pointFunction, rfl⟩
    have square : ((3 : ℝ) + 2) * (3 + 2) + (4 + 4 * 2) * (4 + 4 * 2) = 13 ^ 2 := by norm_num
    rw [point.outcome_infeasibility, Model.residualOutcome, sound.outcome_constraints_ball member,
      ok_bind, sound.outcome_project_ball member square (by norm_num)]
    simp only [Feasibility.ofDefaults, Loss.value, ok_bind, pure_bind, Vec.sub, List.zipWith_cons_cons,
      List.zipWith_nil_right, Vec.dot_cons, Scalar.half_real]
    norm_num [Vec.dot, Vec.mul, Vec.total]
    rfl
  have lengthX : [(2 : ℝ)].length = ball.header.nvar := rfl
  obtain ⟨agreement, _⟩ := lastReachable.uniform_penalty_is_infeasibility augmented feasibility
    rfl (by norm_num : (0 : ℝ) < 4) inForceLater (sound.adjointHomogeneous_ball member) lengthX
  refine ⟨node, _, session, lastReachable, infeasibility, ?_⟩
  rw [agreement, objective, infeasibility]
  rfl

end Session

end CompositeModels
