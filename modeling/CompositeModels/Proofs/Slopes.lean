/-
Module: CompositeModels.Proofs.Slopes
Purpose: The derivatives of expressions are those of analysis, in exact arithmetic. The slope of each
  operator is its derivative, at all operands where it has one. By induction on the expression, the
  backward gradient is then the gradient of the value, at each point where every operator is
  differentiable at its operands.
Main exports: Scalar.intPower_real, UnaryOperator.SmoothAt, UnaryOperator.hasDerivAt_apply,
  UnaryOperator.differentiableAt_iff, BinaryOperator.SmoothAt, BinaryOperator.hasFDerivAt_apply,
  BinaryOperator.differentiableAt_iff, Expression.hasDerivAt_power, Expression.SmoothAt,
  Expression.hasFDerivAt_value, Session.Reachable.expression_derivatives
-/
import CompositeModels.Proofs.Differentiation
import Mathlib.Analysis.Calculus.Deriv.Abs
import Mathlib.Analysis.Calculus.Deriv.Inv
import Mathlib.Analysis.Calculus.Deriv.ZPow
import Mathlib.Analysis.Calculus.FDeriv.Prod
import Mathlib.Analysis.SpecialFunctions.Log.Deriv
import Mathlib.Analysis.SpecialFunctions.Sqrt
import Mathlib.Analysis.SpecialFunctions.Trigonometric.Deriv
import Mathlib.Analysis.SpecialFunctions.Trigonometric.DerivHyp
import Mathlib.Topology.Algebra.Module.ModuleTopology

namespace CompositeModels

/-! ### Scalars -/

namespace Scalar

variable (a b : ℝ)

theorem maximum_real : Scalar.maximum a b = max a b := by
  rw [maximum, largerOf_real]
  by_cases same : a = b
  · subst same
    simp
  · rw [if_neg (by simpa using same)]

theorem minimum_real : Scalar.minimum a b = min a b := by
  rw [minimum, smallerOf_real]
  by_cases same : a = b
  · subst same
    simp
  · rw [if_neg (by simpa using same)]

/-- Repeated squaring makes up the power from the binary digits of the exponent. -/
theorem timesPower_real (product base : ℝ) (n : ℕ) :
    timesPower product base n = product * base ^ n := by
  induction n using Nat.strong_induction_on generalizing product base with
  | h n ih =>
      rw [timesPower]
      split
      · next zero => rw [zero, pow_zero, mul_one]
      · next positive =>
          rw [ih (n / 2) (by omega)]
          have halves : base ^ n = base ^ (n % 2) * (base * base) ^ (n / 2) := by
            rw [← sq, ← pow_mul, ← pow_add, Nat.mod_add_div]
          rw [halves]
          rcases Nat.mod_two_eq_zero_or_one n with even | odd
          · rw [even, if_neg (by decide), pow_zero, one_mul]
          · rw [odd, if_pos rfl, pow_one, mul_assoc]

/-- Integer powers are those of the reals. -/
theorem intPower_real (n : ℤ) : Scalar.intPower a n = a ^ n := by
  rw [intPower, natPower, timesPower_real, one_mul]
  cases n with
  | ofNat n => exact (if_neg (by simp)).trans (zpow_natCast a n).symm
  | negSucc n =>
      exact (if_pos (Int.negSucc_lt_zero n)).trans ((one_div _).trans (zpow_negSucc a n).symm)

end Scalar

/-! ### Operators of one operand -/

namespace UnaryOperator

/-- The operands at which an operator has a derivative. -/
def SmoothAt : UnaryOperator → ℝ → Prop
  | .log, a | .sqrt, a | .abs, a => a ≠ 0
  | .sin, _ | .cos, _ | .exp, _ | .tanh, _ | .neg, _ => True

/-- One minus the square of the value, as the product of one plus and one minus the value. -/
theorem hasDerivAt_tanh (a : ℝ) : HasDerivAt Real.tanh ((1 + Real.tanh a) * (1 - Real.tanh a)) a := by
  have positive : Real.cosh a ≠ 0 := (Real.cosh_pos a).ne'
  have quotient : Real.tanh = fun t => Real.sinh t / Real.cosh t :=
    funext Real.tanh_eq_sinh_div_cosh
  rw [quotient]
  refine ((Real.hasDerivAt_sinh a).div (Real.hasDerivAt_cosh a) positive).congr_deriv ?_
  field_simp
  ring

theorem hasDerivAt_abs {a : ℝ} (nonzero : a ≠ 0) :
    HasDerivAt (|·|) (if 0 ≤ a then 1 else -1) a := by
  rcases nonzero.lt_or_gt with negative | positive
  · rw [if_neg negative.not_ge]
    exact hasDerivAt_abs_neg negative
  · rw [if_pos positive.le]
    exact hasDerivAt_abs_pos positive

/-- The slope of an operator is its derivative. -/
theorem hasDerivAt_apply (operator : UnaryOperator) {a : ℝ} (smooth : operator.SmoothAt a) :
    HasDerivAt operator.apply (operator.chain a).slope a := by
  cases operator with
  | sin => exact (Real.hasDerivAt_sin a).congr_deriv (Chain.slope_single _).symm
  | cos => exact (Real.hasDerivAt_cos a).congr_deriv (Chain.slope_single _).symm
  | exp => exact (Real.hasDerivAt_exp a).congr_deriv (Chain.slope_single _).symm
  | log =>
      refine (Real.hasDerivAt_log smooth).congr_deriv ?_
      exact (one_div a).symm.trans (Chain.slope_single _).symm
  | sqrt =>
      refine (Real.hasDerivAt_sqrt smooth).congr_deriv ?_
      rw [← div_div, ← Scalar.half_real]
      exact (Chain.slope_single _).symm
  | tanh =>
      refine (hasDerivAt_tanh a).congr_deriv ?_
      exact congrArg ((1 + Real.tanh a) * ·) (mul_one _).symm
  | abs => exact (hasDerivAt_abs smooth).congr_deriv (Chain.slope_single _).symm
  | neg => exact (hasDerivAt_neg a).congr_deriv (Chain.slope_single _).symm

theorem not_differentiableAt_sqrt : ¬ DifferentiableAt ℝ Real.sqrt 0 := by
  intro root
  -- The root of a square is the absolute value.
  have squares : DifferentiableAt ℝ (fun t : ℝ => √(t * t)) 0 :=
    DifferentiableAt.comp 0 (by simpa using root) (differentiableAt_id.mul differentiableAt_id)
  simp only [Real.sqrt_mul_self_eq_abs] at squares
  exact not_differentiableAt_abs_zero squares

/-- There is no derivative elsewhere. -/
theorem differentiableAt_iff (operator : UnaryOperator) (a : ℝ) :
    DifferentiableAt ℝ operator.apply a ↔ operator.SmoothAt a := by
  refine ⟨fun differentiable => ?_, fun smooth => (operator.hasDerivAt_apply smooth).differentiableAt⟩
  cases operator with
  | sin | cos | exp | tanh | neg => trivial
  | log =>
      rintro rfl
      exact Real.differentiableAt_log_iff.1 differentiable rfl
  | sqrt =>
      rintro rfl
      exact not_differentiableAt_sqrt differentiable
  | abs =>
      rintro rfl
      exact not_differentiableAt_abs_zero differentiable

end UnaryOperator

/-! ### Operators of two operands -/

namespace BinaryOperator

open ContinuousLinearMap (fst snd)

/-- The operands at which an operator has a derivative in both of them together. -/
def SmoothAt : BinaryOperator → ℝ → ℝ → Prop
  | .div, _, b => b ≠ 0
  | .max, a, b | .min, a, b => a ≠ b
  | .add, _, _ | .sub, _, _ | .mul, _, _ => True

/-- The differential with the slopes of an operator. -/
noncomputable def differential (operator : BinaryOperator) (a b : ℝ) : ℝ × ℝ →L[ℝ] ℝ :=
  (operator.leftChain a b).slope • fst ℝ ℝ ℝ + (operator.rightChain a b).slope • snd ℝ ℝ ℝ

theorem hasFDerivAt_of_slopes {operator : BinaryOperator} {f : ℝ × ℝ → ℝ} {a b l r : ℝ}
    (derivative : HasFDerivAt f (l • fst ℝ ℝ ℝ + r • snd ℝ ℝ ℝ) (a, b))
    (left : (operator.leftChain a b).slope = l) (right : (operator.rightChain a b).slope = r) :
    HasFDerivAt f (operator.differential a b) (a, b) := by
  rw [differential, left, right]
  exact derivative

/-- An operand that alone was selected counts in full. -/
theorem selectedShare_eq_one {operand other : ℝ} (different : other ≠ operand) :
    selectedShare operand other operand = 1 := by
  rw [selectedShare, if_pos (beq_self_eq_true operand), if_neg (by simpa using different)]

theorem selectedShare_eq_zero {operand other selected : ℝ} (different : operand ≠ selected) :
    selectedShare operand other selected = 0 :=
  if_neg (by simpa using different)

section Selection

variable {operator : BinaryOperator} {a b : ℝ}

/-- Both operands count with their shares in the selection that the operator made. -/
structure SharesSelection (operator : BinaryOperator) (a b : ℝ) : Prop where
  left : (operator.leftChain a b).slope = selectedShare a b (operator.apply a b)
  right : (operator.rightChain a b).slope = selectedShare b a (operator.apply a b)

theorem sharesSelection_max : SharesSelection .max a b :=
  ⟨Chain.slope_single _, Chain.slope_single _⟩

theorem sharesSelection_min : SharesSelection .min a b :=
  ⟨Chain.slope_single _, Chain.slope_single _⟩

/-- Where the left operand alone is selected all around, it is what is differentiated. -/
theorem SharesSelection.hasFDerivAt_of_left (shares : operator.SharesSelection a b)
    (selects : ∀ᶠ p : ℝ × ℝ in nhds (a, b), operator.apply p.1 p.2 = p.1) (different : a ≠ b) :
    HasFDerivAt (fun p : ℝ × ℝ => operator.apply p.1 p.2) (operator.differential a b) (a, b) := by
  have selected : HasFDerivAt (fun p : ℝ × ℝ => p.1) ((1 : ℝ) • fst ℝ ℝ ℝ + (0 : ℝ) • snd ℝ ℝ ℝ)
      (a, b) := by
    rw [one_smul, zero_smul, add_zero]
    exact hasFDerivAt_fst
  have value : operator.apply a b = a := selects.self_of_nhds
  refine hasFDerivAt_of_slopes (selected.congr_of_eventuallyEq selects) ?_ ?_
  · rw [shares.left, value, selectedShare_eq_one different.symm]
  · rw [shares.right, value, selectedShare_eq_zero different.symm]

theorem SharesSelection.hasFDerivAt_of_right (shares : operator.SharesSelection a b)
    (selects : ∀ᶠ p : ℝ × ℝ in nhds (a, b), operator.apply p.1 p.2 = p.2) (different : a ≠ b) :
    HasFDerivAt (fun p : ℝ × ℝ => operator.apply p.1 p.2) (operator.differential a b) (a, b) := by
  have selected : HasFDerivAt (fun p : ℝ × ℝ => p.2) ((0 : ℝ) • fst ℝ ℝ ℝ + (1 : ℝ) • snd ℝ ℝ ℝ)
      (a, b) := by
    rw [one_smul, zero_smul, zero_add]
    exact hasFDerivAt_snd
  have value : operator.apply a b = b := selects.self_of_nhds
  refine hasFDerivAt_of_slopes (selected.congr_of_eventuallyEq selects) ?_ ?_
  · rw [shares.left, value, selectedShare_eq_zero different]
  · rw [shares.right, value, selectedShare_eq_one different]

theorem eventually_fst_lt_snd (below : a < b) : ∀ᶠ p : ℝ × ℝ in nhds (a, b), p.1 < p.2 :=
  continuous_fst.continuousAt.eventually_lt continuous_snd.continuousAt below

theorem eventually_snd_lt_fst (above : b < a) : ∀ᶠ p : ℝ × ℝ in nhds (a, b), p.2 < p.1 :=
  continuous_snd.continuousAt.eventually_lt continuous_fst.continuousAt above

theorem hasFDerivAt_max (different : a ≠ b) :
    HasFDerivAt (fun p : ℝ × ℝ => apply .max p.1 p.2) (differential .max a b) (a, b) := by
  rcases different.lt_or_gt with below | above
  · refine sharesSelection_max.hasFDerivAt_of_right ?_ different
    exact (eventually_fst_lt_snd below).mono fun p ordered =>
      (Scalar.maximum_real _ _).trans (max_eq_right ordered.le)
  · refine sharesSelection_max.hasFDerivAt_of_left ?_ different
    exact (eventually_snd_lt_fst above).mono fun p ordered =>
      (Scalar.maximum_real _ _).trans (max_eq_left ordered.le)

theorem hasFDerivAt_min (different : a ≠ b) :
    HasFDerivAt (fun p : ℝ × ℝ => apply .min p.1 p.2) (differential .min a b) (a, b) := by
  rcases different.lt_or_gt with below | above
  · refine sharesSelection_min.hasFDerivAt_of_left ?_ different
    exact (eventually_fst_lt_snd below).mono fun p ordered =>
      (Scalar.minimum_real _ _).trans (min_eq_left ordered.le)
  · refine sharesSelection_min.hasFDerivAt_of_right ?_ different
    exact (eventually_snd_lt_fst above).mono fun p ordered =>
      (Scalar.minimum_real _ _).trans (min_eq_right ordered.le)

end Selection

theorem hasFDerivAt_apply (operator : BinaryOperator) {a b : ℝ} (smooth : operator.SmoothAt a b) :
    HasFDerivAt (fun p : ℝ × ℝ => operator.apply p.1 p.2) (operator.differential a b) (a, b) := by
  have first : HasFDerivAt (fun p : ℝ × ℝ => p.1) (fst ℝ ℝ ℝ) (a, b) := hasFDerivAt_fst
  have second : HasFDerivAt (fun p : ℝ × ℝ => p.2) (snd ℝ ℝ ℝ) (a, b) := hasFDerivAt_snd
  cases operator with
  | add =>
      refine hasFDerivAt_of_slopes (l := 1) (r := 1) ?_ rfl rfl
      rw [one_smul, one_smul]
      exact first.add second
  | sub =>
      have derivative := first.sub second
      rw [sub_eq_add_neg (fst ℝ ℝ ℝ), ← neg_one_smul ℝ (snd ℝ ℝ ℝ),
        ← one_smul ℝ (fst ℝ ℝ ℝ)] at derivative
      exact hasFDerivAt_of_slopes derivative rfl (Chain.slope_single _)
  | mul =>
      have derivative := first.mul second
      rw [add_comm] at derivative
      exact hasFDerivAt_of_slopes derivative (Chain.slope_single _) (Chain.slope_single _)
  | div =>
      have derivative := first.mul ((hasDerivAt_inv smooth).comp_hasFDerivAt (a, b) second)
      rw [add_comm, smul_smul] at derivative
      refine hasFDerivAt_of_slopes derivative ?_ ?_
      · exact (Chain.slope_single _).trans (one_div b)
      · have square : Scalar.intPower b (-2) = (b ^ 2)⁻¹ := by
          rw [Scalar.intPower_real, zpow_neg]
          rfl
        calc (rightChain .div a b).slope = -1 * (a * (Scalar.intPower b (-2) * 1)) := rfl
          _ = a * -(b ^ 2)⁻¹ := by rw [square, mul_one, neg_one_mul, mul_neg]
  | max => exact hasFDerivAt_max smooth
  | min => exact hasFDerivAt_min smooth

theorem differentiableAt_along {operator : BinaryOperator} {a b : ℝ} {path : ℝ → ℝ × ℝ}
    (differentiable : DifferentiableAt ℝ (fun p : ℝ × ℝ => operator.apply p.1 p.2) (a, b))
    (smooth : DifferentiableAt ℝ path 0) (start : path 0 = (a, b)) :
    DifferentiableAt ℝ (fun t => operator.apply (path t).1 (path t).2) 0 := by
  rw [← start] at differentiable
  exact differentiable.comp 0 smooth

/-- The path across a tie on which one operand rises as the other falls. -/
theorem differentiableAt_across {operator : BinaryOperator} {a : ℝ}
    (differentiable : DifferentiableAt ℝ (fun p : ℝ × ℝ => operator.apply p.1 p.2) (a, a)) :
    DifferentiableAt ℝ (fun t => operator.apply (a + t) (a - t)) 0 :=
  differentiableAt_along differentiable
    ((differentiableAt_id.const_add a).prodMk (differentiableAt_id.const_sub a)) (by simp)

/-- Across a tie the larger value has a kink. -/
theorem not_differentiableAt_max (a : ℝ) :
    ¬ DifferentiableAt ℝ (fun p : ℝ × ℝ => apply .max p.1 p.2) (a, a) := by
  intro differentiable
  have across := (differentiableAt_across differentiable).sub_const a
  have value : ∀ t : ℝ, apply .max (a + t) (a - t) - a = |t| := by
    intro t
    rw [apply, Scalar.maximum_real, sub_eq_add_neg a t, max_add_add_left, ← abs_eq_max_neg]
    exact add_sub_cancel_left a |t|
  simp only [value] at across
  exact not_differentiableAt_abs_zero across

theorem not_differentiableAt_min (a : ℝ) :
    ¬ DifferentiableAt ℝ (fun p : ℝ × ℝ => apply .min p.1 p.2) (a, a) := by
  intro differentiable
  have across := (differentiableAt_across differentiable).const_sub a
  have value : ∀ t : ℝ, a - apply .min (a + t) (a - t) = |t| := by
    intro t
    rw [apply, Scalar.minimum_real, sub_eq_add_neg a t, min_add_add_left, abs_eq_max_neg]
    rcases le_total t (-t) with below | above
    · rw [min_eq_left below, max_eq_right below, sub_add_cancel_left]
    · rw [min_eq_right above, max_eq_left above, sub_add_cancel_left, neg_neg]
  simp only [value] at across
  exact not_differentiableAt_abs_zero across

/-- Along a path that meets the axis of the zero divisors, a quotient is an inverse. -/
theorem not_differentiableAt_div (a : ℝ) :
    ¬ DifferentiableAt ℝ (fun p : ℝ × ℝ => apply .div p.1 p.2) (a, 0) := by
  intro differentiable
  have path : DifferentiableAt ℝ (fun t : ℝ => (a + t, (a + t) * t)) 0 :=
    (differentiableAt_id.const_add a).prodMk
      ((differentiableAt_id.const_add a).mul differentiableAt_id)
  have along := differentiableAt_along differentiable path (by simp)
  have value : ∀ t : ℝ, a + t ≠ 0 → (a + t) / ((a + t) * t) = t⁻¹ := fun t nonzero =>
    div_mul_cancel_left₀ nonzero t
  have inverse : (fun t : ℝ => t⁻¹) =ᶠ[nhds 0] fun t => (a + t) / ((a + t) * t) := by
    by_cases zero : a = 0
    · refine .of_forall fun t => ?_
      rcases eq_or_ne t 0 with rfl | nonzero
      · simp
      · exact (value t (by rwa [zero, zero_add])).symm
    · have away : ∀ᶠ t : ℝ in nhds 0, a + t ≠ 0 :=
        (continuous_const.add continuous_id).continuousAt.eventually_ne (by simpa using zero)
      exact away.mono fun t nonzero => (value t nonzero).symm
  exact differentiableAt_inv_iff.1 (along.congr_of_eventuallyEq inverse) rfl

/-- There is no derivative elsewhere. -/
theorem differentiableAt_iff (operator : BinaryOperator) (a b : ℝ) :
    DifferentiableAt ℝ (fun p : ℝ × ℝ => operator.apply p.1 p.2) (a, b) ↔
      operator.SmoothAt a b := by
  refine ⟨fun differentiable => ?_, fun smooth => (operator.hasFDerivAt_apply smooth).differentiableAt⟩
  cases operator with
  | add | sub | mul => trivial
  | div =>
      rintro rfl
      exact not_differentiableAt_div a differentiable
  | max =>
      rintro rfl
      exact not_differentiableAt_max a differentiable
  | min =>
      rintro rfl
      exact not_differentiableAt_min a differentiable

end BinaryOperator

/-! ### Expressions -/

namespace Expression

/-- The slope of an integer power is its derivative. -/
theorem hasDerivAt_power {a : ℝ} {exponent : ℤ} (smooth : a ≠ 0 ∨ 0 ≤ exponent) :
    HasDerivAt (fun t => Scalar.intPower t exponent) (powerChain a exponent).slope a := by
  have power : (fun t : ℝ => Scalar.intPower t exponent) = fun t => t ^ exponent :=
    funext fun t => Scalar.intPower_real t exponent
  have slope : (powerChain a exponent).slope = exponent * a ^ (exponent - 1) := by
    rw [powerChain, Chain.slope_single, Scalar.intPower_real]
    rfl
  rw [power, slope]
  exact hasDerivAt_zpow exponent a smooth

/-- There is no derivative elsewhere. -/
theorem differentiableAt_power_iff (a : ℝ) (exponent : ℤ) :
    DifferentiableAt ℝ (fun t => Scalar.intPower t exponent) a ↔ a ≠ 0 ∨ 0 ≤ exponent := by
  simp only [Scalar.intPower_real]
  exact differentiableAt_zpow

/-- A zero power is constant, so its slope is zero. -/
theorem slope_powerChain_zero (a : ℝ) : (powerChain a 0).slope = 0 := by
  have zero : (Elementary.ofInteger 0 : ℝ) = 0 := Int.cast_zero
  rw [powerChain, Chain.slope_single, zero]
  exact zero_mul _

/-- Each operator of the expression is differentiable at its operands. -/
def SmoothAt (x : List ℝ) : Expression ℝ → Prop
  | .constant _ | .entry _ => True
  | .binary operator left right =>
      operator.SmoothAt (left.value x) (right.value x) ∧ left.SmoothAt x ∧ right.SmoothAt x
  | .power operand exponent => (operand.value x ≠ 0 ∨ 0 ≤ exponent) ∧ operand.SmoothAt x
  | .unary operator operand => operator.SmoothAt (operand.value x) ∧ operand.SmoothAt x

variable {n : ℕ}

/-- The differential whose coefficients are the entries of the gradient. -/
noncomputable def differential (e : Expression ℝ) (u : Fin n → ℝ) : (Fin n → ℝ) →L[ℝ] ℝ :=
  ∑ i : Fin n, (e.gradient (List.ofFn u)).getD i 0 •
    ContinuousLinearMap.proj (R := ℝ) (φ := fun _ : Fin n => ℝ) i

theorem differential_apply (e : Expression ℝ) (u v : Fin n → ℝ) :
    e.differential u v = e.directionalDerivative (List.ofFn u) (List.ofFn v) := by
  have length : (e.gradient (List.ofFn u)).length = n := by simp
  obtain ⟨g, gradient⟩ := Vec.exists_eq_ofFn length
  rw [← dot_gradient _ _ e (by simp), differential, gradient, Vec.dot_ofFn]
  simp

/-- A linear map that has the forward derivative along every direction is the differential. -/
theorem eq_differential {e : Expression ℝ} {u : Fin n → ℝ} {linear : (Fin n → ℝ) →L[ℝ] ℝ}
    (forward : ∀ v, linear v = e.directionalDerivative (List.ofFn u) (List.ofFn v)) :
    linear = e.differential u :=
  ContinuousLinearMap.ext fun v => (forward v).trans (e.differential_apply u v).symm

/-- An entry is a projection. A point has zero where it has no entry. -/
theorem hasFDerivAt_entry (index : ℕ) (u : Fin n → ℝ) :
    HasFDerivAt (fun w : Fin n → ℝ => (entry index).value (List.ofFn w))
      ((entry index).differential u) u := by
  by_cases inside : index < n
  · have value : ∀ w : Fin n → ℝ, (List.ofFn w).getD index 0 = w ⟨index, inside⟩ := by
      intro w
      simp [List.getD_eq_getElem?_getD, inside]
    have projection := hasFDerivAt_apply (𝕜 := ℝ) (⟨index, inside⟩ : Fin n) u
    refine (projection.congr_of_eventuallyEq (.of_forall value)).congr_fderiv ?_
    exact eq_differential fun v => (value v).symm
  · have value : ∀ w : Fin n → ℝ, (List.ofFn w).getD index 0 = 0 := by
      intro w
      simp [List.getD_eq_getElem?_getD, inside]
    refine ((hasFDerivAt_const 0 u).congr_of_eventuallyEq (.of_forall value)).congr_fderiv ?_
    exact eq_differential fun v => (value v).symm

/-- The differential is the derivative of the value: the chain rule, operator by operator. -/
theorem hasFDerivAt_value (e : Expression ℝ) {u : Fin n → ℝ} (smooth : e.SmoothAt (List.ofFn u)) :
    HasFDerivAt (fun w : Fin n → ℝ => e.value (List.ofFn w)) (e.differential u) u := by
  induction e with
  | constant a => exact (hasFDerivAt_const a u).congr_fderiv (eq_differential fun v => rfl)
  | entry index => exact hasFDerivAt_entry index u
  | binary operator left right leftIH rightIH =>
      obtain ⟨smooth, leftSmooth, rightSmooth⟩ := smooth
      have operands := (leftIH leftSmooth).prodMk (rightIH rightSmooth)
      refine ((operator.hasFDerivAt_apply smooth).comp u operands).congr_fderiv ?_
      apply eq_differential
      intro v
      rw [directionalDerivative_binary, ← differential_apply, ← differential_apply]
      rfl
  | power operand exponent ih =>
      obtain ⟨smooth, operandSmooth⟩ := smooth
      refine ((hasDerivAt_power smooth).comp_hasFDerivAt u (ih operandSmooth)).congr_fderiv ?_
      apply eq_differential
      intro v
      rw [directionalDerivative_power, ← differential_apply]
      split
      · next zero =>
          rw [zero, slope_powerChain_zero, zero_smul]
          rfl
      · rfl
  | unary operator operand ih =>
      obtain ⟨smooth, operandSmooth⟩ := smooth
      refine ((operator.hasDerivAt_apply smooth).comp_hasFDerivAt u
        (ih operandSmooth)).congr_fderiv ?_
      apply eq_differential
      intro v
      rw [directionalDerivative_unary, ← differential_apply]
      rfl

end Expression

/-! ### Sessions -/

/-- In every session, an expression leaf returns the gradient of its objective where the objective is
smooth, and the derivatives of its constraints along `v` where they are smooth. -/
theorem Session.Reachable.expression_derivatives {session : Session ℝ} (reachable : session.Reachable)
    {leaf : ExpressionLeaf ℝ} (member : .expression leaf ∈ session.models)
    (u : Fin leaf.header.nvar → ℝ) :
    (leaf.objective.SmoothAt (List.ofFn u) → ∃ g : Fin leaf.header.nvar → ℝ,
      (leaf.oracle.gradient (.vector (List.ofFn u)) none).outcome session.store =
        .ok (List.ofFn g) ∧
      HasFDerivAt (fun w : Fin leaf.header.nvar → ℝ => leaf.objective.value (List.ofFn w))
        (∑ i, g i • ContinuousLinearMap.proj (R := ℝ) (φ := fun _ => ℝ) i) u) ∧
    ((∀ e ∈ leaf.constraints, e.SmoothAt (List.ofFn u)) →
      (∀ v : Fin leaf.header.nvar → ℝ,
        (leaf.oracle.jacobianProduct (.vector (List.ofFn u)) (.vector (List.ofFn v)) none).outcome
          session.store = .ok (leaf.constraints.map fun e => e.differential u v)) ∧
      ∀ e ∈ leaf.constraints, HasFDerivAt
        (fun w : Fin leaf.header.nvar → ℝ => e.value (List.ofFn w)) (e.differential u) u) := by
  have sound := reachable.sound
  refine ⟨fun smooth => ?_, fun smooth => ⟨fun v => ?_, fun e known => ?_⟩⟩
  · obtain ⟨g, gradient⟩ := Vec.exists_eq_ofFn
      (show (leaf.objective.gradient (List.ofFn u)).length = leaf.header.nvar by simp)
    refine ⟨g, ?_, (leaf.objective.hasFDerivAt_value smooth).congr_fderiv ?_⟩
    · rw [← gradient]
      exact sound.outcome_gradient_expression member List.length_ofFn
    · rw [Expression.differential, gradient]
      simp
  · rw [sound.outcome_jacobianProduct_expression member List.length_ofFn List.length_ofFn]
    refine congrArg Except.ok (List.map_congr_left fun e _ => ?_)
    exact (e.differential_apply u v).symm
  · exact e.hasFDerivAt_value (smooth e known)

end CompositeModels
