/-
Module: CompositeModels.Proofs.BoxPenalty
Purpose: Augmented Lagrangians of models that clamp constraint values onto a box, whatever bounds are
  missing. The penalty term is a function of the constraint values, and the multiplier estimate is its
  gradient, also where a bound begins or ceases to be active. An estimate that is not zero has its sign
  from the bound that is active, and at values in the box the penalty term is not above zero.
Main exports: clampOnto, Session.Sound.projectsAs_clampOnto, Interval.Complementary,
  penaltyAt_clampOnto_growth, hasFDerivAt_of_growth, penaltyAt_clampOnto_of_contains,
  Session.Reachable.multiplier_estimate_is_penalty_gradient,
  Session.Reachable.multiplier_estimate_is_complementary
-/
import CompositeModels.Proofs.Indicator
import CompositeModels.Proofs.SlackElimination
import Mathlib.Analysis.Calculus.FDeriv.Basic

namespace CompositeModels

open AugmentedLagrangian (penaltyAt multiplierAt)

/-! ### Models that clamp -/

/-- Clamp each entry onto its interval. -/
noncomputable def clampOnto {n : ℕ} (box : Fin n → Interval ℝ) (v : Fin n → ℝ) (i : Fin n) : ℝ :=
  (box i).clamp (v i)

theorem Box.clamp_ofFn {n : ℕ} (box : Fin n → Interval ℝ) (v : Fin n → ℝ) :
    Box.clamp (List.ofFn box) (List.ofFn v) = List.ofFn (clampOnto box v) :=
  Vec.zipWith_ofFn Interval.clamp box v

/-- The box of the zero vector alone. -/
theorem Box.clamp_replicate_zero (v : List ℝ) :
    Box.clamp (List.replicate v.length ⟨some 0, some 0⟩) v = Vec.zeros v.length := by
  induction v with
  | nil => rfl
  | cons a rest ih =>
      have first : Interval.clamp ⟨some 0, some 0⟩ a = 0 := Interval.clamp_single 0 a
      show Interval.clamp ⟨some 0, some 0⟩ a :: Box.clamp (List.replicate rest.length _) rest = _
      rw [first, ih]
      rfl

section

variable {session : Session ℝ} {model : Model ℝ}

/-- Every stack over a backend clamps onto the box of its constraint values. -/
theorem Session.Sound.outcome_project_valueBox (sound : session.Sound)
    (member : model ∈ session.models) (packaged : model.IsPackaged) {leaf : BackendLeaf ℝ}
    (built : model.leaf = .backend leaf) {v : List ℝ} (length : v.length = model.header.ncon) :
    (model.oracle.project (.vector v) none).outcome session.store = .ok (model.valueBox.clamp v) := by
  induction model with
  | backend known =>
      rcases Nat.eq_zero_or_pos known.header.ncon with unconstrained | constrained
      · have empty : v = [] := List.eq_nil_of_length_eq_zero (length.trans unconstrained)
        rw [sound.outcome_project_unconstrained member unconstrained length, empty]
        simp [Box.clamp]
      · exact sound.outcome_project_constrained member constrained length
  | expression known => cases built
  | slack node base ih =>
      have clamped : (Model.slack node base).valueBox.clamp v = Vec.zeros v.length := by
        have ncon : node.header.ncon = v.length := length.symm
        rw [Model.valueBox, ncon]
        exact Box.clamp_replicate_zero v
      rcases Nat.eq_zero_or_pos node.header.ncon with unconstrained | constrained
      · rw [sound.outcome_project_unconstrained member unconstrained length, clamped, length]
        exact congrArg (fun n => Except.ok (Vec.zeros n)) unconstrained.symm
      · rw [sound.outcome_project_constrained member constrained length, clamped,
          ← Vec.zeroed_eq_zeros]
        rfl
  | proximalPoint node base ih =>
      have baseMember : base ∈ session.models := sound.family.bases member rfl
      obtain ⟨_, ncon, _⟩ := sound.family.regular member
      have lengthBase : v.length = base.header.ncon := length.trans ncon
      rw [sound.outcome_project_proximalPoint member lengthBase]
      exact ih baseMember packaged built lengthBase
  | augmentedLagrangian node base ih =>
      obtain ⟨_, ncon, _⟩ := sound.family.regular member
      exact sound.outcome_project_unconstrained member ncon length
  | feasibility node base ih =>
      obtain ⟨_, ncon, _⟩ := sound.family.regular member
      exact sound.outcome_project_unconstrained member ncon length
  | tailored node base ih => exact packaged.elim

theorem Session.Sound.projectsAs_clampOnto (sound : session.Sound) (member : model ∈ session.models)
    (packaged : model.IsPackaged) {leaf : BackendLeaf ℝ} (built : model.leaf = .backend leaf)
    {box : Fin model.header.ncon → Interval ℝ} (valueBox : model.valueBox = List.ofFn box) :
    model.ProjectsAs session.store (clampOnto box) := by
  intro v
  rw [sound.outcome_project_valueBox member packaged built List.length_ofFn, valueBox, Box.clamp_ofFn]

end

/-! ### The penalty term -/

section

variable {n : ℕ} {box : Fin n → Interval ℝ} {mu : Fin n → ℝ}

/-- What is left of the clamped vector points away from the box, in any scales. -/
theorem clampOnto_obtuse (positive : ∀ i, 0 < mu i) {a : Fin n → ℝ}
    (contains : ∀ i, (box i).Contains (a i)) (w : Fin n → ℝ) :
    ∑ i, (w i - clampOnto box w i) / mu i * (a i - clampOnto box w i) ≤ 0 := by
  apply Finset.sum_nonpos
  intro i _
  have obtuse := Interval.clamp_obtuse (contains i) (w i)
  rw [div_mul_eq_mul_div]
  exact div_nonpos_of_nonpos_of_nonneg obtuse (positive i).le

/-- The clamped vector is nearest in the box, in any scales. -/
theorem scaledSquaredDistance_clampOnto_le (positive : ∀ i, 0 < mu i) {a : Fin n → ℝ}
    (contains : ∀ i, (box i).Contains (a i)) (w : Fin n → ℝ) :
    scaledSquaredDistance mu w (clampOnto box w) ≤ scaledSquaredDistance mu w a := by
  apply Finset.sum_le_sum
  intro i _
  have nearest := Interval.sq_clamp_sub_le (contains i) (w i)
  rw [sub_sq_comm, sub_sq_comm (w i) (a i)]
  exact div_le_div_of_nonneg_right nearest (positive i).le

/-- The penalty term grows along the multiplier estimate at least, and by half the squared step in the
scales of the parameters more at most. -/
theorem penaltyAt_clampOnto_growth (ordered : ∀ i, (box i).Ordered) (positive : ∀ i, 0 < mu i)
    (y c u : Fin n → ℝ) :
    0 ≤ penaltyAt (clampOnto box) mu y u - penaltyAt (clampOnto box) mu y c -
        ∑ i, multiplierAt (clampOnto box) mu y c i * (u i - c i) ∧
      penaltyAt (clampOnto box) mu y u - penaltyAt (clampOnto box) mu y c -
        ∑ i, multiplierAt (clampOnto box) mu y c i * (u i - c i) ≤
          1 / 2 * ∑ i, (u i - c i) ^ 2 / mu i := by
  have inside : ∀ (v : Fin n → ℝ) (i : Fin n), (box i).Contains (clampOnto box v i) :=
    fun v i => Interval.contains_clamp (ordered i) (v i)
  have growth := half_scaledSquaredDistance_growth positive
    (clampOnto_obtuse positive (inside fun i => u i + mu i * y i) fun i => c i + mu i * y i)
    (scaledSquaredDistance_clampOnto_le positive (inside fun i => c i + mu i * y i)
      fun i => u i + mu i * y i)
  -- The shift by the multipliers drops out of every step.
  have step : ∀ i, u i + mu i * y i - (c i + mu i * y i) = u i - c i := fun i => by ring
  have linear : ∑ i, (c i + mu i * y i - clampOnto box (fun j => c j + mu j * y j) i) / mu i *
      (u i + mu i * y i - (c i + mu i * y i)) =
        ∑ i, multiplierAt (clampOnto box) mu y c i * (u i - c i) := by
    simp only [step, multiplierAt]
  have quadratic : scaledSquaredDistance mu (fun i => u i + mu i * y i)
      (fun i => c i + mu i * y i) = ∑ i, (u i - c i) ^ 2 / mu i := by
    simp only [scaledSquaredDistance, step]
  rw [linear, quadratic] at growth
  simp only [penaltyAt]
  rcases growth with ⟨lower, upper⟩
  constructor
  · linarith
  · linarith

/-- A function that stays within a quadratic bound of its linear model is differentiable. -/
theorem hasFDerivAt_of_growth {f : (Fin n → ℝ) → ℝ} {c slope : Fin n → ℝ}
    (positive : ∀ i, 0 < mu i)
    (growth : ∀ u, 0 ≤ f u - f c - ∑ i, slope i * (u i - c i) ∧
      f u - f c - ∑ i, slope i * (u i - c i) ≤ 1 / 2 * ∑ i, (u i - c i) ^ 2 / mu i) :
    HasFDerivAt f (∑ i, slope i • ContinuousLinearMap.proj (R := ℝ) (φ := fun _ : Fin n => ℝ) i) c := by
  rw [hasFDerivAt_iff_isLittleO]
  have quadratic : ∀ u, 1 / 2 * ∑ i, (u i - c i) ^ 2 / mu i ≤
      (1 / 2 * ∑ i, 1 / mu i) * ‖u - c‖ ^ 2 := by
    intro u
    rw [mul_assoc, Finset.sum_mul]
    gcongr with i
    rw [div_mul_eq_mul_div, one_mul]
    have entry : |u i - c i| ≤ ‖u - c‖ := norm_le_pi_norm (u - c) i
    exact div_le_div_of_nonneg_right (sq_le_sq.2 (by rwa [abs_norm])) (positive i).le
  apply Asymptotics.IsBigO.trans_isLittleO _ (Asymptotics.isLittleO_pow_sub_sub c one_lt_two)
  apply Asymptotics.IsBigO.of_bound (1 / 2 * ∑ i, 1 / mu i)
  apply Filter.Eventually.of_forall
  intro u
  rcases growth u with ⟨lower, upper⟩
  have linear : (∑ i, slope i • ContinuousLinearMap.proj (R := ℝ) (φ := fun _ : Fin n => ℝ) i)
      (u - c) = ∑ i, slope i * (u i - c i) := by
    simp
  rw [linear, Real.norm_of_nonneg lower, norm_pow, norm_norm]
  exact upper.trans (quadratic u)

/-- The estimate is the multiplier plus the distance of the value from the clamped one, in the scale of
the parameter. -/
theorem multiplierAt_eq (P : (Fin n → ℝ) → Fin n → ℝ) (positive : ∀ i, 0 < mu i) (y c : Fin n → ℝ)
    (i : Fin n) :
    multiplierAt P mu y c i = y i + (c i - P (fun j => c j + mu j * y j) i) / mu i := by
  have nonzero : mu i ≠ 0 := (positive i).ne'
  rw [multiplierAt]
  field_simp
  ring

theorem multiplierAt_eq_iff (P : (Fin n → ℝ) → Fin n → ℝ) (positive : ∀ i, 0 < mu i)
    (y c : Fin n → ℝ) : multiplierAt P mu y c = y ↔ c = P fun j => c j + mu j * y j := by
  rw [funext_iff, funext_iff]
  apply forall_congr'
  intro i
  rw [multiplierAt_eq P positive, add_eq_left, div_eq_zero_iff, sub_eq_zero,
    or_iff_left (positive i).ne']

/-- A multiplier `a` of a value `z` in an interval is above zero only if `z` is the upper bound, and
below zero only if `z` is the lower bound. -/
structure Interval.Complementary (interval : Interval ℝ) (z a : ℝ) : Prop where
  upper : 0 < a → interval.upper = some z
  lower : a < 0 → interval.lower = some z

namespace Interval.Complementary

variable {interval : Interval ℝ} {z a : ℝ} (complementary : interval.Complementary z a)
include complementary

theorem nonneg (unbounded : interval.lower = none) : 0 ≤ a := by
  by_contra negative
  have active := complementary.lower (not_le.1 negative)
  rw [unbounded] at active
  cases active

theorem nonpos (unbounded : interval.upper = none) : a ≤ 0 := by
  by_contra positive
  have active := complementary.upper (not_le.1 positive)
  rw [unbounded] at active
  cases active

end Interval.Complementary

/-- An entry of the estimate has the sign of what is left of the shifted value, which ends at the bound
on that side. -/
theorem complementary_multiplierAt (ordered : ∀ i, (box i).Ordered) (positive : ∀ i, 0 < mu i)
    (y c : Fin n → ℝ) (i : Fin n) :
    (box i).Complementary (clampOnto box (fun j => c j + mu j * y j) i)
      (multiplierAt (clampOnto box) mu y c i) := by
  constructor
  · intro above
    have lowered := (div_pos_iff_of_pos_right (positive i)).1 above
    exact Interval.upper_eq_of_clamp_lt (sub_pos.1 lowered)
  · intro below
    have raised : c i + mu i * y i - clampOnto box (fun j => c j + mu j * y j) i < 0 :=
      not_le.1 fun nonneg => absurd below (not_lt.2 (div_nonneg nonneg (positive i).le))
    exact Interval.lower_eq_of_lt_clamp (ordered i) (sub_neg.1 raised)

/-- The penalty term at a projection `z` of the shifted values, around the values themselves. -/
theorem penaltyAt_eq (P : (Fin n → ℝ) → Fin n → ℝ) (positive : ∀ i, 0 < mu i) (y c : Fin n → ℝ)
    {z : Fin n → ℝ} (projected : P (fun i => c i + mu i * y i) = z) :
    penaltyAt P mu y c = ∑ i, (c i + mu i * y i - z i) / mu i * (c i - z i) -
      1 / 2 * scaledSquaredDistance mu c z := by
  simp only [penaltyAt, projected, scaledSquaredDistance, Finset.mul_sum]
  rw [← Finset.sum_sub_distrib, ← Finset.sum_sub_distrib]
  apply Finset.sum_congr rfl
  intro i _
  have nonzero : mu i ≠ 0 := (positive i).ne'
  field_simp
  ring

/-- At values in the box the penalty term is not above zero, and it is zero only if the estimate is the
multiplier. -/
theorem penaltyAt_clampOnto_of_contains (positive : ∀ i, 0 < mu i) (y : Fin n → ℝ) {c : Fin n → ℝ}
    (contains : ∀ i, (box i).Contains (c i)) :
    penaltyAt (clampOnto box) mu y c ≤ 0 ∧
      (penaltyAt (clampOnto box) mu y c = 0 ↔ multiplierAt (clampOnto box) mu y c = y) := by
  have obtuse := clampOnto_obtuse positive contains fun i => c i + mu i * y i
  have expanded := penaltyAt_eq (clampOnto box) positive y c rfl
  have square := scaledSquaredDistance_nonneg positive c
    (clampOnto box fun i => c i + mu i * y i)
  rw [multiplierAt_eq_iff _ positive, ← scaledSquaredDistance_eq_zero_iff positive]
  refine ⟨by linarith, ?_, ?_⟩
  · intro zero
    linarith
  · intro zero
    have same := (scaledSquaredDistance_eq_zero_iff positive _ _).1 zero
    rw [expanded, zero]
    simp only [← same, sub_self, mul_zero, Finset.sum_const_zero]

/-- Where only `b` is admitted, the penalty term is the linear term of the multipliers and half the
squared distance from `b`. -/
theorem penaltyAt_clampOnto_single (positive : ∀ i, 0 < mu i) (y c : Fin n → ℝ) {b : Fin n → ℝ}
    (single : ∀ i, box i = ⟨some (b i), some (b i)⟩) :
    penaltyAt (clampOnto box) mu y c =
      ∑ i, y i * (c i - b i) + 1 / 2 * ∑ i, (c i - b i) ^ 2 / mu i := by
  have projected : clampOnto box (fun i => c i + mu i * y i) = b := by
    funext i
    rw [clampOnto, single]
    exact Interval.clamp_single _ _
  rw [penaltyAt_eq _ positive y c projected, scaledSquaredDistance, Finset.mul_sum,
    ← Finset.sum_sub_distrib, ← Finset.sum_add_distrib]
  apply Finset.sum_congr rfl
  intro i _
  have nonzero : mu i ≠ 0 := (positive i).ne'
  field_simp
  ring

end

/-! ### The box problem -/

namespace Session

/-- The intervals of the constraint values. -/
noncomputable def boxIntervals : Fin 2 → Interval ℝ := ![⟨none, some 1⟩, ⟨some 0, some 1⟩]

theorem ordered_boxIntervals (i : Fin 2) : (boxIntervals i).Ordered :=
  ordered_boxLeaf _ (List.mem_ofFn.2 ⟨i, rfl⟩)

/-- An augmented Lagrangian of the problem, with the parameters `(2, 2)` and the multipliers
`(1, -1)`. -/
theorem exists_augmented_box :
    ∃ (node : AugmentedLagrangian ℝ) (session : Session ℝ), session.Reachable ∧
      .augmentedLagrangian node (.backend boxLeaf) ∈ session.models ∧
      node.InForce session.store (List.ofFn ![2, 2]) (List.ofFn ![1, -1]) := by
  have isOf : AugmentedLagrangian.IsOf ⟨⟨0, ⟨1, 0, [0], [], true, "box-al"⟩, true⟩,
      .ofVectors (.vector [2, 2]) (.vector [1, -1])⟩ boxLeaf.header (.vector [2, 2])
      (.vector [1, -1]) none true := {
    constrained := rfl
    admissible := admissible_pair two_pos two_pos 1 (-1)
    header := rfl
    ownsBase := rfl
    penalty := rfl }
  obtain ⟨node, session, reachable, models, _, inForce⟩ :=
    reachable_boxed.exists_augmented boxLeaf_mem_boxed isOf
  exact ⟨node, session, reachable, models ▸ .head _, inForce⟩

section

variable {session : Session ℝ} (sound : session.Sound)
  (member : .backend boxLeaf ∈ session.models)
include sound member

theorem Sound.clamps_boxLeaf :
    (Model.backend boxLeaf).ProjectsAs session.store (clampOnto boxIntervals) :=
  sound.projectsAs_clampOnto member trivial rfl rfl

theorem Sound.outcome_constraints_boxLeaf (x : ℝ) :
    ((Model.backend boxLeaf).oracle.constraints (.vector [x]) none).outcome session.store =
      .ok (List.ofFn ![x, x]) := by
  rw [sound.outcome_constraints member]
  rfl

theorem Sound.outcome_objective_boxLeaf (x : ℝ) :
    ((Model.backend boxLeaf).oracle.objective (.vector [x])).outcome session.store = .ok (0 + x) := by
  rw [sound.outcome_objective member (Model.backend boxLeaf).repeatable]
  rfl

end

end Session

/-! ### Augmented Lagrangians -/

namespace AugmentedPoint

variable {session : Session ℝ} {node : AugmentedLagrangian ℝ} {base : Model ℝ} {x : List ℝ}
  {mu y : Fin base.header.ncon → ℝ}

theorem positive_ofFn (point : AugmentedPoint session node base (List.ofFn mu) (List.ofFn y) x)
    (i : Fin base.header.ncon) : 0 < mu i :=
  point.positive _ (List.mem_ofFn.2 ⟨i, rfl⟩)

end AugmentedPoint

/-- In every session, for a base that clamps onto a box with ordered bounds: the gradient of the
augmented Lagrangian is that of the base plus the transposed Jacobian times the multiplier estimate, and
its value is that of the base plus the penalty term at the constraint values. The penalty term grows
along the estimate at least, and by half the squared step in the scales of the parameters more at most, so
the estimate is its gradient. -/
theorem Session.Reachable.multiplier_estimate_is_penalty_gradient {session : Session ℝ}
    (reachable : session.Reachable) {node : AugmentedLagrangian ℝ} {base : Model ℝ}
    (member : .augmentedLagrangian node base ∈ session.models)
    {box : Fin base.header.ncon → Interval ℝ} (ordered : ∀ i, (box i).Ordered)
    (clamps : base.ProjectsAs session.store (clampOnto box)) {mu y : Fin base.header.ncon → ℝ}
    (inForce : node.InForce session.store (List.ofFn mu) (List.ofFn y)) {x : List ℝ}
    (lengthX : x.length = base.header.nvar) :
    ((Model.augmentedLagrangian node base).oracle.gradient (.vector x) none).outcome session.store =
      (do
        let estimate ←
          (node.multiplierEstimate base.oracle (.vector x) none).outcome session.store
        let slope ← (base.oracle.gradient (.vector x) none).outcome session.store
        let correction ←
          (base.oracle.adjointProduct (.vector x) (.vector estimate) none).outcome session.store
        return Vec.add slope correction) ∧
    ∀ c, (base.oracle.constraints (.vector x) none).outcome session.store = .ok (List.ofFn c) →
      ∃ yu : Fin base.header.ncon → ℝ,
        (node.multiplierEstimate base.oracle (.vector x) none).outcome session.store =
          .ok (List.ofFn yu) ∧
        ((Model.augmentedLagrangian node base).oracle.objective (.vector x)).outcome session.store =
          (do
            let value ← (base.oracle.objective (.vector x)).outcome session.store
            return value + penaltyAt (clampOnto box) mu y c) ∧
        (∀ u, 0 ≤ penaltyAt (clampOnto box) mu y u - penaltyAt (clampOnto box) mu y c -
            ∑ i, yu i * (u i - c i) ∧
          penaltyAt (clampOnto box) mu y u - penaltyAt (clampOnto box) mu y c -
            ∑ i, yu i * (u i - c i) ≤ 1 / 2 * ∑ i, (u i - c i) ^ 2 / mu i) ∧
        HasFDerivAt (penaltyAt (clampOnto box) mu y)
          (∑ i, yu i • ContinuousLinearMap.proj (R := ℝ) (φ := fun _ => ℝ) i) c := by
  have point : AugmentedPoint session node base (List.ofFn mu) (List.ofFn y) x :=
    ⟨reachable.sound, member, inForce, lengthX⟩
  refine ⟨point.outcome_gradient base.repeatable, fun c constraints => ?_⟩
  have growth := penaltyAt_clampOnto_growth ordered point.positive_ofFn y c
  exact ⟨multiplierAt (clampOnto box) mu y c,
    point.outcome_multiplierEstimate_eq_multiplierAt clamps constraints,
    point.outcome_objective_eq_penaltyAt clamps constraints, growth,
    hasFDerivAt_of_growth point.positive_ofFn growth⟩

/-- At `x = 3` the shifted values are `(5, 1)`. The first is clamped to its upper bound, and the second
lies on its upper bound, where that begins to be active. -/
theorem Session.multiplier_estimate_is_penalty_gradient_box :
    ∃ (node : AugmentedLagrangian ℝ) (session : Session ℝ) (yu : Fin 2 → ℝ), session.Reachable ∧
      (node.multiplierEstimate (Model.backend boxLeaf).oracle (.vector [3]) none).outcome
        session.store = .ok (List.ofFn yu) ∧
      ((Model.augmentedLagrangian node (.backend boxLeaf)).oracle.objective (.vector [3])).outcome
        session.store = .ok 5 ∧
      HasFDerivAt (penaltyAt (clampOnto boxIntervals) ![2, 2] ![1, -1])
        (∑ i, yu i • ContinuousLinearMap.proj (R := ℝ) (φ := fun _ => ℝ) i) ![3, 3] := by
  obtain ⟨node, session, reachable, member, inForce⟩ := exists_augmented_box
  have sound := reachable.sound
  have known : .backend boxLeaf ∈ session.models := sound.family.bases member rfl
  obtain ⟨yu, estimate, objective, _, derivative⟩ :=
    (reachable.multiplier_estimate_is_penalty_gradient member ordered_boxIntervals
      (sound.clamps_boxLeaf known) inForce (x := [3]) rfl).2 ![3, 3]
        (sound.outcome_constraints_boxLeaf known 3)
  have term : 0 + 3 + penaltyAt (clampOnto boxIntervals) ![2, 2] ![1, -1] ![3, 3] = 5 := by
    simp only [penaltyAt, scaledSquaredDistance, clampOnto, boxIntervals, Fin.sum_univ_two]
    norm_num [Interval.clamp_none_some, Interval.clamp_some_some]
  refine ⟨node, session, yu, reachable, estimate, ?_, derivative⟩
  rw [objective, sound.outcome_objective_boxLeaf known, ok_bind]
  exact congrArg Except.ok term

/-- In every session, for a base that clamps onto a box with ordered bounds: the multiplier estimate is
the multiplier corrected by the distance of the constraint values from the projected ones. It is
complementary, so its sign is that of the bounds that are there. At values in the box the augmented
Lagrangian is not above the objective of the base, and equal to it only if the estimate is the multiplier.
With equality constraints it is the usual one. -/
theorem Session.Reachable.multiplier_estimate_is_complementary {session : Session ℝ}
    (reachable : session.Reachable) {node : AugmentedLagrangian ℝ} {base : Model ℝ}
    (member : .augmentedLagrangian node base ∈ session.models)
    {box : Fin base.header.ncon → Interval ℝ} (ordered : ∀ i, (box i).Ordered)
    (clamps : base.ProjectsAs session.store (clampOnto box)) {mu y : Fin base.header.ncon → ℝ}
    (inForce : node.InForce session.store (List.ofFn mu) (List.ofFn y)) {x : List ℝ}
    (lengthX : x.length = base.header.nvar)
    {c : Fin base.header.ncon → ℝ}
    (constraints : (base.oracle.constraints (.vector x) none).outcome session.store =
      .ok (List.ofFn c)) :
    ∃ yu z : Fin base.header.ncon → ℝ,
      (node.multiplierEstimate base.oracle (.vector x) none).outcome session.store =
        .ok (List.ofFn yu) ∧
      (base.oracle.project (.vector (List.ofFn fun i => c i + mu i * y i)) none).outcome
        session.store = .ok (List.ofFn z) ∧
      (∀ i, yu i = y i + (c i - z i) / mu i) ∧
      (∀ i, (0 < yu i → (box i).upper = some (z i)) ∧ (yu i < 0 → (box i).lower = some (z i)) ∧
        ((box i).lower = none → 0 ≤ yu i) ∧ ((box i).upper = none → yu i ≤ 0) ∧
        ((box i).lower = none → (box i).upper = none → yu i = 0)) ∧
      (∀ f, (base.oracle.objective (.vector x)).outcome session.store = .ok f →
        (∀ i, (box i).Contains (c i)) →
        ∃ value, ((Model.augmentedLagrangian node base).oracle.objective (.vector x)).outcome
          session.store = .ok value ∧ value ≤ f ∧ (value = f ↔ yu = y)) ∧
      ∀ f (b : Fin base.header.ncon → ℝ),
        (base.oracle.objective (.vector x)).outcome session.store = .ok f →
        (∀ i, box i = ⟨some (b i), some (b i)⟩) →
        ((Model.augmentedLagrangian node base).oracle.objective (.vector x)).outcome session.store =
          .ok (f + (∑ i, y i * (c i - b i) + 1 / 2 * ∑ i, (c i - b i) ^ 2 / mu i)) := by
  have point : AugmentedPoint session node base (List.ofFn mu) (List.ofFn y) x :=
    ⟨reachable.sound, member, inForce, lengthX⟩
  have positive := point.positive_ofFn
  have complementary := complementary_multiplierAt ordered positive y c
  have objective := point.outcome_objective_eq_penaltyAt clamps constraints
  refine ⟨multiplierAt (clampOnto box) mu y c, clampOnto box fun i => c i + mu i * y i,
    point.outcome_multiplierEstimate_eq_multiplierAt clamps constraints, clamps _,
    multiplierAt_eq _ positive y c, fun i => ?signs, fun f returned contains => ?feasible,
    fun f b returned single => ?equality⟩
  case signs =>
    refine ⟨(complementary i).upper, (complementary i).lower, (complementary i).nonneg,
      (complementary i).nonpos, fun below above => ?_⟩
    exact le_antisymm ((complementary i).nonpos above) ((complementary i).nonneg below)
  case feasible =>
    obtain ⟨nonpositive, zero⟩ := penaltyAt_clampOnto_of_contains positive y contains
    refine ⟨_, by rw [objective, returned]; rfl, by linarith, ?_⟩
    rw [← zero, add_eq_left]
  case equality =>
    rw [objective, returned, penaltyAt_clampOnto_single positive y c single]
    rfl

/-- At `x = 1 / 2` the constraint values `(1 / 2, 1 / 2)` are in the box, and the shifted ones,
`(5 / 2, -3 / 2)`, lie beyond an upper and a lower bound. -/
theorem Session.multiplier_estimate_is_complementary_box :
    ∃ (node : AugmentedLagrangian ℝ) (session : Session ℝ) (yu z : Fin 2 → ℝ), session.Reachable ∧
      (node.multiplierEstimate (Model.backend boxLeaf).oracle (.vector [1 / 2]) none).outcome
        session.store = .ok (List.ofFn yu) ∧
      yu 0 = 3 / 4 ∧ (boxIntervals 0).upper = some (z 0) ∧
      yu 1 = -3 / 4 ∧ (boxIntervals 1).lower = some (z 1) ∧
      ∃ value, ((Model.augmentedLagrangian node (.backend boxLeaf)).oracle.objective
        (.vector [1 / 2])).outcome session.store = .ok value ∧ value < 1 / 2 := by
  obtain ⟨node, session, reachable, member, inForce⟩ := exists_augmented_box
  have sound := reachable.sound
  have known : .backend boxLeaf ∈ session.models := sound.family.bases member rfl
  obtain ⟨yu, z, estimate, project, correction, signs, feasible, _⟩ :=
    reachable.multiplier_estimate_is_complementary member ordered_boxIntervals
      (sound.clamps_boxLeaf known) inForce (x := [1 / 2]) rfl
      (sound.outcome_constraints_boxLeaf known (1 / 2))
  -- The projection is known, and with it the estimate.
  have projected := project.symm.trans (sound.clamps_boxLeaf known _)
  obtain rfl := List.ofFn_injective (Except.ok.inj projected)
  have first : yu (0 : Fin 2) = 3 / 4 := by
    refine (correction (0 : Fin 2)).trans ?_
    show (1 : ℝ) + (1 / 2 - Interval.clamp ⟨none, some 1⟩ (1 / 2 + 2 * 1)) / 2 = 3 / 4
    rw [Interval.clamp_none_some]
    norm_num
  have second : yu (1 : Fin 2) = -3 / 4 := by
    refine (correction (1 : Fin 2)).trans ?_
    show (-1 : ℝ) + (1 / 2 - Interval.clamp ⟨some 0, some 1⟩ (1 / 2 + 2 * -1)) / 2 = -3 / 4
    rw [Interval.clamp_some_some]
    norm_num
  have inside : ∀ i, (boxIntervals i).Contains (![1 / 2, 1 / 2] i) := by
    intro i
    fin_cases i
    · constructor <;> intro bound same <;> cases same
      norm_num
    · constructor <;> intro bound same <;> cases same <;> norm_num
  obtain ⟨value, returned, below, same⟩ :=
    feasible _ (sound.outcome_objective_boxLeaf known (1 / 2)) inside
  have different : value ≠ 0 + 1 / 2 := by
    intro equal
    have unchanged : yu (0 : Fin 2) = 1 := congrFun (same.1 equal) (0 : Fin 2)
    linarith
  rw [zero_add] at below different
  have above : 0 < yu (0 : Fin 2) := by linarith
  have negative : yu (1 : Fin 2) < 0 := by linarith
  exact ⟨node, session, yu, _, reachable, estimate, first, (signs (0 : Fin 2)).1 above, second,
    (signs (1 : Fin 2)).2.1 negative, value, returned, lt_of_le_of_ne below different⟩

end CompositeModels
