/-
Module: CompositeModels.Proofs.SignDirection
Purpose: The sum of absolute values as the loss of a residual. Its gradient is taken along the signs of the
  residual, as if the entries of the projection moved on their own. The loss grows along the signs, as a
  function of the constraint values, exactly where the signs are normal to the set at the projection. That
  is so at every point for sets that are determined entry by entry, and it fails for a ball.
Main exports: signs, absoluteResidual, lossAt_abs, IsSubgradient, SignNormal,
  isSubgradient_signs_iff, isSubgradient_signs_iff_signNormal, signNormal_of_entrywise,
  Session.Reachable.sign_gradient_is_subgradient_iff
-/
import CompositeModels.Proofs.InfeasibilityMeasures
import Mathlib.Analysis.Calculus.Deriv.Add
import Mathlib.Analysis.Calculus.Deriv.Inv
import Mathlib.Analysis.Calculus.Deriv.Pow
import Mathlib.Topology.Algebra.Module.ModuleTopology

namespace CompositeModels

variable {n : ℕ} {S : Set (Fin n → ℝ)} {P : (Fin n → ℝ) → Fin n → ℝ}

/-- The signs of the entries. -/
noncomputable def signs (u : Fin n → ℝ) (i : Fin n) : ℝ := Scalar.sign (u i)

/-- The sum of the absolute values of what is left of a vector by the map `P`. -/
noncomputable def absoluteResidual (P : (Fin n → ℝ) → Fin n → ℝ) (u : Fin n → ℝ) : ℝ :=
  ∑ i, |u i - P u i|

/-- From `c` on, the function grows along `d` at least. -/
def IsSubgradient (f : (Fin n → ℝ) → ℝ) (c d : Fin n → ℝ) : Prop :=
  ∀ u, f c + ∑ i, d i * (u i - c i) ≤ f u

/-- With every normal of the set, the signs of its entries are normal as well. -/
def SignNormal (S : Set (Fin n → ℝ)) : Prop :=
  ∀ z ∈ S, ∀ d, IsNormal S z d → IsNormal S z (signs d)

theorem lossAt_abs (huber : Huber ℝ) (P : (Fin n → ℝ) → Fin n → ℝ) (u : Fin n → ℝ) :
    lossAt .abs huber P u = absoluteResidual P u := by
  show Vec.total (Vec.abs (List.ofFn fun i => u i - P u i)) = _
  rw [Vec.abs_ofFn, Vec.total_ofFn]
  rfl

/-- Members of the set have no residual. -/
theorem absoluteResidual_of_mem (nearest : ∀ v, IsNearest S v (P v)) {s : Fin n → ℝ}
    (member : s ∈ S) : absoluteResidual P s = 0 := by
  rw [absoluteResidual, ← (nearest s).mem_iff.1 member]
  simp only [sub_self, abs_zero, Finset.sum_const_zero]

/-- Along the signs of the residual, the linear function starts from zero at the nearest point. -/
theorem absoluteResidual_add (P : (Fin n → ℝ) → Fin n → ℝ) (c u : Fin n → ℝ) :
    absoluteResidual P c + ∑ i, signs (fun i => c i - P c i) i * (u i - c i) =
      ∑ i, signs (fun i => c i - P c i) i * (u i - P c i) := by
  rw [absoluteResidual, ← Finset.sum_add_distrib]
  apply Finset.sum_congr rfl
  intro i _
  rw [← Scalar.sign_mul_self_real, signs]
  ring

/-- The sum of absolute values of the residual grows along the signs of the residual at `c` exactly if
they are normal to the set at the nearest point of `c`. -/
theorem isSubgradient_signs_iff (nearest : ∀ v, IsNearest S v (P v)) (c : Fin n → ℝ) :
    IsSubgradient (absoluteResidual P) c (signs fun i => c i - P c i) ↔
      IsNormal S (P c) (signs fun i => c i - P c i) := by
  constructor
  · intro growth s hs
    have value := growth s
    rwa [absoluteResidual_add, absoluteResidual_of_mem nearest hs] at value
  · intro normal u
    have obtuse := normal (P u) (nearest u).member
    have split : ∑ i, signs (fun i => c i - P c i) i * (u i - P c i) =
        ∑ i, signs (fun i => c i - P c i) i * (u i - P u i) +
          ∑ i, signs (fun i => c i - P c i) i * (P u i - P c i) := by
      rw [← Finset.sum_add_distrib]
      exact Finset.sum_congr rfl fun i _ => by ring
    have bounded : ∑ i, signs (fun i => c i - P c i) i * (u i - P u i) ≤ absoluteResidual P u :=
      Finset.sum_le_sum fun i _ => Scalar.sign_mul_le_real _ _
    rw [absoluteResidual_add, split]
    linarith

/-- The sum of absolute values grows along the signs of the residual everywhere exactly if the signs of
normals are normal. -/
theorem isSubgradient_signs_iff_signNormal (convex : Convex ℝ S)
    (nearest : ∀ v, IsNearest S v (P v)) :
    (∀ v, IsSubgradient (absoluteResidual P) v (signs fun i => v i - P v i)) ↔ SignNormal S := by
  constructor
  · intro growth z hz d normal
    -- The point from which `d` leads back to `z` has `z` as its nearest point.
    have difference : (fun i => z i + d i - z i) = d := by
      funext i
      ring
    have atZ : IsNearest S (fun i => z i + d i) z :=
      (isNearest_iff_isNormal convex).2 ⟨hz, difference.symm ▸ normal⟩
    have same : P (fun i => z i + d i) = z := atZ.unique convex (nearest _)
    have signsNormal := (isSubgradient_signs_iff nearest _).1 (growth fun i => z i + d i)
    rwa [same, difference] at signsNormal
  · intro normal v
    have atV := (isNearest_iff_isNormal convex).1 (nearest v)
    exact (isSubgradient_signs_iff nearest v).2 (normal _ atV.1 _ atV.2)

/-- Where membership is decided entry by entry, the signs of a normal are normal: each entry is divided
by its absolute value. -/
theorem signNormal_of_entrywise (entrywise : Entrywise S) : SignNormal S := by
  intro z hz d normal
  have positive : ∀ i, 0 < if d i = 0 then 1 else |d i| := by
    intro i
    split
    · exact one_pos
    · next nonzero => exact abs_pos.2 nonzero
  have scaled : signs d = fun i => d i / if d i = 0 then 1 else |d i| := by
    funext i
    rw [signs, eq_div_iff (positive i).ne']
    split
    · next zero => rw [zero, Scalar.sign_zero_real, zero_mul]
    · exact Scalar.sign_mul_abs_real (d i)
  rw [scaled]
  exact isNormal_div_of_entrywise entrywise hz normal positive

/-! ### The gradient along the signs -/

namespace FeasibilityPoint

variable {session : Session ℝ} {problem : Feasibility ℝ} {base : Model ℝ} {x : List ℝ}
  (point : FeasibilityPoint session problem base x) (absolute : problem.loss = .abs)
  {P : (Fin base.header.ncon → ℝ) → Fin base.header.ncon → ℝ}
  (projects : base.ProjectsAs session.store P) {c : Fin base.header.ncon → ℝ}
  (constraints : (base.oracle.constraints (.vector x) none).outcome session.store =
    .ok (List.ofFn c))
include point absolute projects constraints

theorem outcome_infeasibility_abs :
    (problem.infeasibility base.oracle (.vector x)).outcome session.store =
      .ok (absoluteResidual P c) := by
  rw [point.outcome_infeasibility, Model.residualOutcome_eq constraints (projects c), Vec.sub_ofFn,
    absolute, ← lossAt_abs problem.huber]
  rfl

/-- The signs of the residual are pulled back. -/
theorem outcome_infeasibilityGradient_abs :
    (problem.infeasibilityGradient base.oracle (.vector x) none).outcome session.store =
      (base.oracle.adjointProduct (.vector x) (.vector (List.ofFn (signs fun i => c i - P c i)))
        none).outcome session.store := by
  have residual : base.residualOutcome session.store x = .ok (List.ofFn fun i => c i - P c i) := by
    rw [Model.residualOutcome_eq constraints (projects c), Vec.sub_ofFn]
  apply point.outcome_infeasibilityGradient_of_direction residual
  rw [absolute]
  exact congrArg (fun v => Except.ok (some v)) List.map_ofFn

end FeasibilityPoint

/-- In every session, for a base that projects onto a convex set, with the sum of absolute values as the
loss: the infeasibility is that sum, and its gradient is the transposed Jacobian times the signs of the
residual. As a function of the constraint values, the infeasibility grows along the signs at least, exactly
if they are normal to the set at the projection. Where the transposed Jacobian takes different vectors
to different ones, no other vector could stand in for the signs. It is so for all constraint values
exactly if the signs of normals are normal, as they are for sets that are determined entry by entry. -/
theorem Session.Reachable.sign_gradient_is_subgradient_iff {session : Session ℝ}
    (reachable : session.Reachable) {problem : Feasibility ℝ} {base : Model ℝ}
    (member : .feasibility problem base ∈ session.models) (absolute : problem.loss = .abs)
    {S : Set (Fin base.header.ncon → ℝ)} (convex : Convex ℝ S)
    {P : (Fin base.header.ncon → ℝ) → Fin base.header.ncon → ℝ}
    (nearest : ∀ v, IsNearest S v (P v)) (projects : base.ProjectsAs session.store P) {x : List ℝ}
    (lengthX : x.length = base.header.nvar) {c : Fin base.header.ncon → ℝ}
    (constraints : (base.oracle.constraints (.vector x) none).outcome session.store =
      .ok (List.ofFn c)) :
    let d := signs fun i => c i - P c i
    let pullback := fun e : Fin base.header.ncon → ℝ =>
      (base.oracle.adjointProduct (.vector x) (.vector (List.ofFn e)) none).outcome session.store
    (problem.infeasibility base.oracle (.vector x)).outcome session.store =
      .ok (absoluteResidual P c) ∧
    (problem.infeasibilityGradient base.oracle (.vector x) none).outcome session.store =
      pullback d ∧
    (IsSubgradient (absoluteResidual P) c d ↔ IsNormal S (P c) d) ∧
    (Function.Injective pullback →
      ((∃ e, pullback e =
          (problem.infeasibilityGradient base.oracle (.vector x) none).outcome session.store ∧
            IsSubgradient (absoluteResidual P) c e) ↔ IsNormal S (P c) d)) ∧
    ((∀ v, IsSubgradient (absoluteResidual P) v (signs fun i => v i - P v i)) ↔ SignNormal S) ∧
    (Entrywise S → SignNormal S) := by
  intro d pullback
  have point : FeasibilityPoint session problem base x :=
    ⟨reachable.sound, member, base.pointFunction, lengthX⟩
  have gradient : (problem.infeasibilityGradient base.oracle (.vector x) none).outcome
      session.store = pullback d :=
    point.outcome_infeasibilityGradient_abs absolute projects constraints
  have atC := isSubgradient_signs_iff nearest c
  refine ⟨point.outcome_infeasibility_abs absolute projects constraints, gradient, atC,
    fun injective => ?_, isSubgradient_signs_iff_signNormal convex nearest, signNormal_of_entrywise⟩
  rw [gradient]
  constructor
  · rintro ⟨e, same, growth⟩
    obtain rfl : e = d := injective same
    exact atC.1 growth
  · intro normal
    exact ⟨d, rfl, atC.2 normal⟩

/-! ### The ball problem -/

namespace Session

section

variable {session : Session ℝ} (sound : session.Sound) (member : ball ∈ session.models)
include sound member

theorem Sound.exists_projection_ball : ∃ P : (Fin 2 → ℝ) → Fin 2 → ℝ,
    ball.ProjectsAs session.store P ∧ ∀ v, IsNearest (centeredBall 2 5) v (P v) :=
  (sound.projectsOnto_ball member).exists_map

variable {P : (Fin 2 → ℝ) → Fin 2 → ℝ} (projects : ball.ProjectsAs session.store P)
include projects

theorem Sound.projection_ball {a b norm : ℝ} (square : a * a + b * b = norm ^ 2)
    (outside : 5 < norm) : P ![a, b] = ![a * (5 / norm), b * (5 / norm)] := by
  have returned := (projects ![a, b]).symm.trans (sound.outcome_project_ball member square outside)
  exact List.ofFn_injective (Except.ok.inj returned)

/-- Outside of the ball, the residual is a part of the vector. -/
theorem Sound.absoluteResidual_ball {a b norm : ℝ} (square : a * a + b * b = norm ^ 2)
    (outside : 5 < norm) : absoluteResidual P ![a, b] = (|a| + |b|) * (1 - 5 / norm) := by
  have positive : 0 ≤ 1 - 5 / norm :=
    sub_nonneg.2 ((div_le_one (by linarith)).2 outside.le)
  have part : ∀ a : ℝ, |a - a * (5 / norm)| = |a| * (1 - 5 / norm) := by
    intro a
    rw [← mul_one_sub, abs_mul, abs_of_nonneg positive]
  rw [absoluteResidual, sound.projection_ball member projects square outside, Fin.sum_univ_two]
  simp only [Matrix.cons_val_zero, Matrix.cons_val_one, part]
  ring

end

/-- At `x = -3` the constraint values are `(0, -8)`, and the signs `(0, -1)` of the residual are normal to
the ball at `(0, -5)`. -/
theorem sign_gradient_is_subgradient_ball :
    ∃ (problem : Feasibility ℝ) (session : Session ℝ) (P : (Fin 2 → ℝ) → Fin 2 → ℝ),
      session.Reachable ∧ (∀ v, IsNearest (centeredBall 2 5) v (P v)) ∧
      (problem.infeasibility ball.oracle (.vector [-3])).outcome session.store =
        .ok (absoluteResidual P ![0, -8]) ∧
      (problem.infeasibilityGradient ball.oracle (.vector [-3]) none).outcome session.store =
        .ok [-4] ∧
      IsSubgradient (absoluteResidual P) ![0, -8] ![0, -1] := by
  obtain ⟨problem, session, reachable, member, absolute⟩ := exists_feasibility_ball .abs
  have sound := reachable.sound
  have known : ball ∈ session.models := sound.family.bases member rfl
  obtain ⟨P, projects, nearest⟩ := sound.exists_projection_ball known
  have constraints : (ball.oracle.constraints (.vector [-3]) none).outcome session.store =
      .ok (List.ofFn ![0, -8]) := by
    have values : [3 + (-3 : ℝ), 4 + 4 * -3] = List.ofFn ![0, -8] := by norm_num
    rw [sound.outcome_constraints_ball known, values]
  have square : (0 : ℝ) * 0 + -8 * -8 = 8 ^ 2 := by norm_num
  have projected := sound.projection_ball known projects square (by norm_num)
  have direction : (signs fun i : Fin 2 => ![0, -8] i - P ![0, -8] i) = ![0, -1] := by
    rw [projected]
    funext i
    fin_cases i
    · show Scalar.sign ((0 : ℝ) - 0 * (5 / 8)) = 0
      rw [zero_mul, sub_zero, Scalar.sign_zero_real]
    · show Scalar.sign ((-8 : ℝ) - -8 * (5 / 8)) = -1
      exact Scalar.sign_of_neg_real (by norm_num)
  have normal : IsNormal (centeredBall 2 5) (P ![0, -8])
      (signs fun i : Fin 2 => ![0, -8] i - P ![0, -8] i) := by
    intro s hs
    have inside : ∑ i, s i ^ 2 ≤ (5 : ℝ) ^ 2 := hs
    rw [Fin.sum_univ_two] at inside
    rw [direction, projected, Fin.sum_univ_two]
    show (0 : ℝ) * (s 0 - 0 * (5 / 8)) + -1 * (s 1 - -8 * (5 / 8)) ≤ 0
    nlinarith [sq_nonneg (s 0), sq_nonneg (s 1 + 5)]
  obtain ⟨infeasibility, gradient, growth, _⟩ := reachable.sign_gradient_is_subgradient_iff member
    absolute (convex_centeredBall 5) nearest projects (x := [-3]) rfl constraints
  have growth : IsSubgradient (absoluteResidual P) ![0, -8]
      (signs fun i : Fin 2 => ![0, -8] i - P ![0, -8] i) := growth.2 normal
  have pulledBack : (ball.oracle.adjointProduct (.vector [-3])
      (.vector (List.ofFn (signs fun i : Fin 2 => ![0, -8] i - P ![0, -8] i))) none).outcome
        session.store = .ok [-4] := by
    rw [direction]
    refine (sound.outcome_adjointProduct_ball known (-3) 0 (-1)).trans ?_
    norm_num
  rw [direction] at growth
  exact ⟨problem, session, P, reachable, nearest, infeasibility, gradient.trans pulledBack, growth⟩

/-- No direction is a subgradient at `(5, 12)`, since the sum of absolute values is not convex: it would have
to be one along the ray through `(5, 12)`, towards `(0, 13)` and towards the member `(3, 4)`. -/
theorem not_isSubgradient_ball {session : Session ℝ} (sound : session.Sound)
    (member : ball ∈ session.models) {P : (Fin 2 → ℝ) → Fin 2 → ℝ}
    (projects : ball.ProjectsAs session.store P)
    (nearest : ∀ v, IsNearest (centeredBall 2 5) v (P v)) (d : Fin 2 → ℝ) :
    ¬ IsSubgradient (absoluteResidual P) ![5, 12] d := by
  intro growth
  have outer := growth ![10, 24]
  have inner := growth ![25 / 13, 60 / 13]
  have upper := growth ![0, 13]
  have lower := growth ![3, 4]
  have value : absoluteResidual P ![5, 12] = 136 / 13 := by
    have square : (5 : ℝ) * 5 + 12 * 12 = 13 ^ 2 := by norm_num
    rw [sound.absoluteResidual_ball member projects square (by norm_num)]
    norm_num
  have outerValue : absoluteResidual P ![10, 24] = 357 / 13 := by
    have square : (10 : ℝ) * 10 + 24 * 24 = 26 ^ 2 := by norm_num
    rw [sound.absoluteResidual_ball member projects square (by norm_num)]
    norm_num
  have upperValue : absoluteResidual P ![0, 13] = 8 := by
    have square : (0 : ℝ) * 0 + 13 * 13 = 13 ^ 2 := by norm_num
    rw [sound.absoluteResidual_ball member projects square (by norm_num)]
    norm_num
  have innerValue : absoluteResidual P ![25 / 13, 60 / 13] = 0 := by
    apply absoluteResidual_of_mem nearest
    show ∑ i : Fin 2, ![25 / 13, 60 / 13] i ^ 2 ≤ (5 : ℝ) ^ 2
    norm_num [Fin.sum_univ_two]
  have lowerValue : absoluteResidual P ![3, 4] = 0 := by
    apply absoluteResidual_of_mem nearest
    show ∑ i : Fin 2, ![3, 4] i ^ 2 ≤ (5 : ℝ) ^ 2
    norm_num [Fin.sum_univ_two]
  rw [value, Fin.sum_univ_two] at outer inner upper lower
  rw [outerValue] at outer
  rw [innerValue] at inner
  rw [upperValue] at upper
  rw [lowerValue] at lower
  simp only [Matrix.cons_val_zero, Matrix.cons_val_one] at outer inner upper lower
  linarith

/-- The infeasibility of the ball problem as a function of the variable, while it is positive. -/
theorem outcome_infeasibility_ball {session : Session ℝ} (sound : session.Sound)
    {problem : Feasibility ℝ} (member : .feasibility problem ball ∈ session.models)
    (absolute : problem.loss = .abs) {t : ℝ} (positive : 0 < t) :
    (problem.infeasibility ball.oracle (.vector [t])).outcome session.store =
      .ok ((7 + 5 * t) * (1 - 5 / √((3 + t) ^ 2 + (4 + 4 * t) ^ 2))) := by
  have known : ball ∈ session.models := sound.family.bases member rfl
  have point : FeasibilityPoint session problem ball [t] :=
    ⟨sound, member, ball.pointFunction, rfl⟩
  obtain ⟨P, projects, _⟩ := sound.exists_projection_ball known
  have constraints : (ball.oracle.constraints (.vector [t]) none).outcome session.store =
      .ok (List.ofFn ![3 + t, 4 + 4 * t]) := sound.outcome_constraints_ball known t
  have square : (3 + t) * (3 + t) + (4 + 4 * t) * (4 + 4 * t) =
      √((3 + t) ^ 2 + (4 + 4 * t) ^ 2) ^ 2 := by
    rw [Real.sq_sqrt (by positivity)]
    ring
  have outside : 5 < √((3 + t) ^ 2 + (4 + 4 * t) ^ 2) := by
    apply Real.lt_sqrt_of_sq_lt
    nlinarith
  have value : absoluteResidual P ![3 + t, 4 + 4 * t] =
      (7 + 5 * t) * (1 - 5 / √((3 + t) ^ 2 + (4 + 4 * t) ^ 2)) := by
    rw [sound.absoluteResidual_ball known projects square outside, abs_of_pos (by linarith),
      abs_of_pos (by linarith)]
    ring
  exact (point.outcome_infeasibility_abs absolute projects constraints).trans (congrArg _ value)

/-- The derivative of the infeasibility at `x = 2` -/
theorem hasDerivAt_infeasibility_ball :
    HasDerivAt (fun t : ℝ => (7 + 5 * t) * (1 - 5 / √((3 + t) ^ 2 + (4 + 4 * t) ^ 2)))
      (11265 / 2197) 2 := by
  have norm : √(((3 : ℝ) + 2) ^ 2 + (4 + 4 * 2) ^ 2) = 13 := by
    rw [Real.sqrt_eq_iff_mul_self_eq] <;> norm_num
  have first : HasDerivAt (fun t : ℝ => 3 + t) 1 2 := (hasDerivAt_id' (2 : ℝ)).const_add 3
  have second : HasDerivAt (fun t : ℝ => 4 + 4 * t) (4 * 1) 2 :=
    ((hasDerivAt_id' (2 : ℝ)).const_mul 4).const_add 4
  have squares : HasDerivAt (fun t : ℝ => (3 + t) ^ 2 + (4 + 4 * t) ^ 2) 106 2 :=
    ((first.pow 2).add (second.pow 2)).congr_deriv (by norm_num)
  have root : HasDerivAt (fun t : ℝ => √((3 + t) ^ 2 + (4 + 4 * t) ^ 2)) (53 / 13) 2 := by
    refine (squares.sqrt (by norm_num)).congr_deriv ?_
    rw [norm]
    norm_num
  have sum : HasDerivAt (fun t : ℝ => 7 + 5 * t) (5 * 1) 2 :=
    ((hasDerivAt_id' (2 : ℝ)).const_mul 5).const_add 7
  have share : HasDerivAt (fun t : ℝ => 1 - 5 / √((3 + t) ^ 2 + (4 + 4 * t) ^ 2)) (265 / 2197) 2 := by
    refine (((hasDerivAt_const (2 : ℝ) (5 : ℝ)).div root (by rw [norm]; norm_num)).const_sub
      1).congr_deriv ?_
    rw [norm]
    norm_num
  refine (sum.mul share).congr_deriv ?_
  rw [norm]
  norm_num

/-- At `x = 2` the gradient of the infeasibility is said to be five, but its derivative there is `11265 / 2197`,
and no direction at all is a subgradient at the constraint values `(5, 12)`. -/
theorem sign_gradient_is_no_gradient_ball :
    ∃ (problem : Feasibility ℝ) (session : Session ℝ) (P : (Fin 2 → ℝ) → Fin 2 → ℝ) (value : ℝ → ℝ),
      session.Reachable ∧ .feasibility problem ball ∈ session.models ∧ problem.loss = .abs ∧
      Convex ℝ (centeredBall 2 5) ∧ IsClosed (centeredBall 2 5) ∧
      (∀ v, IsNearest (centeredBall 2 5) v (P v)) ∧ ball.ProjectsAs session.store P ∧
      (ball.oracle.constraints (.vector [2]) none).outcome session.store =
        .ok (List.ofFn ![5, 12]) ∧
      (problem.infeasibilityGradient ball.oracle (.vector [2]) none).outcome session.store =
        .ok [5] ∧
      (∀ t, 0 < t → (problem.infeasibility ball.oracle (.vector [t])).outcome session.store =
        .ok (value t)) ∧
      HasDerivAt value (11265 / 2197) 2 ∧
      ¬ ∃ d, IsSubgradient (absoluteResidual P) ![5, 12] d := by
  obtain ⟨problem, session, reachable, member, absolute⟩ := exists_feasibility_ball .abs
  have sound := reachable.sound
  have known : ball ∈ session.models := sound.family.bases member rfl
  have point : FeasibilityPoint session problem ball [2] :=
    ⟨sound, member, ball.pointFunction, rfl⟩
  obtain ⟨P, projects, nearest⟩ := sound.exists_projection_ball known
  have square : (5 : ℝ) * 5 + 12 * 12 = 13 ^ 2 := by norm_num
  have projected := sound.projection_ball known projects square (by norm_num)
  have direction : (signs fun i : Fin 2 => ![5, 12] i - P ![5, 12] i) = ![1, 1] := by
    rw [projected]
    funext i
    fin_cases i
    · show Scalar.sign ((5 : ℝ) - 5 * (5 / 13)) = 1
      exact Scalar.sign_of_pos_real (by norm_num)
    · show Scalar.sign ((12 : ℝ) - 12 * (5 / 13)) = 1
      exact Scalar.sign_of_pos_real (by norm_num)
  have pulledBack : (ball.oracle.adjointProduct (.vector [2])
      (.vector (List.ofFn (signs fun i : Fin 2 => ![5, 12] i - P ![5, 12] i))) none).outcome
        session.store = .ok [5] := by
    rw [direction]
    refine (sound.outcome_adjointProduct_ball known 2 1 1).trans ?_
    norm_num
  have constraints := sound.outcome_constraints_ball_two known
  refine ⟨problem, session, P, _, reachable, member, absolute, convex_centeredBall 5,
    isClosed_centeredBall 5, nearest, projects, constraints,
    (point.outcome_infeasibilityGradient_abs absolute projects constraints).trans pulledBack,
    fun t positive => outcome_infeasibility_ball sound member absolute positive,
    hasDerivAt_infeasibility_ball, ?_⟩
  rintro ⟨d, growth⟩
  exact not_isSubgradient_ball sound known projects nearest d growth

end Session

end CompositeModels
