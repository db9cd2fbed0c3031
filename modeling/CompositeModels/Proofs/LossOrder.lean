/-
Module: CompositeModels.Proofs.LossOrder
Purpose: The losses of one residual, compared with each other and with its largest absolute value. With
  `V` for that value, `A`, `E`, `Q` and `H` for the four losses and `n` entries:

    V <= E <= A <= n V,   Q = E^2 / 2,   H = min over t in [0, E] of scale ((E - t)^2 / 2 + threshold t)

  so they vanish together. All but the sum of absolute values grow with the norm.
Main exports: Vec.maxAbs_ofFn_le_iff, Vec.maxAbs_le_norm, Vec.norm_le_total_abs,
  Vec.total_abs_le_maxAbs, Huber.profile_isLeast, Huber.value_of_norm_eq, Loss.value_nonneg,
  Loss.value_eq_zero_iff, Loss.value_le_of_norm_le, Loss.IsDirection, Loss.exists_isDirection
-/
import CompositeModels.Proofs.LossGrowth

namespace CompositeModels

variable {n : ℕ}

/-! ### Norms -/

namespace Vec

/-- A bound of the largest absolute value is one of all absolute values. -/
theorem maxAbs_le_iff {v : List ℝ} {bound : ℝ} :
    maxAbs v ≤ bound ↔ 0 ≤ bound ∧ ∀ a ∈ v, |a| ≤ bound := by
  have folded : ∀ first : ℝ, (abs v).foldl Scalar.largerOf first ≤ bound ↔
      first ≤ bound ∧ ∀ a ∈ v, |a| ≤ bound := by
    induction v with
    | nil => simp [abs]
    | cons a rest ih =>
        intro first
        show (abs rest).foldl Scalar.largerOf (Scalar.largerOf first |a|) ≤ bound ↔ _
        rw [ih, Scalar.largerOf_real, max_le_iff, List.forall_mem_cons, and_assoc]
  exact folded 0

theorem maxAbs_nonneg (v : List ℝ) : 0 ≤ maxAbs v :=
  (maxAbs_le_iff.1 (le_refl (maxAbs v))).1

variable (u : Fin n → ℝ)

theorem maxAbs_ofFn_le_iff {bound : ℝ} :
    maxAbs (List.ofFn u) ≤ bound ↔ 0 ≤ bound ∧ ∀ i, |u i| ≤ bound := by
  rw [maxAbs_le_iff, List.forall_mem_ofFn_iff]

theorem abs_le_maxAbs (i : Fin n) : |u i| ≤ maxAbs (List.ofFn u) :=
  ((maxAbs_ofFn_le_iff u).1 (le_refl _)).2 i

theorem maxAbs_le_norm : maxAbs (List.ofFn u) ≤ norm (List.ofFn u) := by
  refine (maxAbs_ofFn_le_iff u).2 ⟨norm_nonneg _, fun i => ?_⟩
  rw [norm_ofFn]
  apply Real.abs_le_sqrt
  exact Finset.single_le_sum (fun j _ => sq_nonneg (u j)) (Finset.mem_univ i)

theorem norm_le_total_abs : norm (List.ofFn u) ≤ total (abs (List.ofFn u)) := by
  rw [norm_ofFn, abs_ofFn, total_ofFn]
  apply Real.sqrt_le_iff.2
  refine ⟨Finset.sum_nonneg fun i _ => abs_nonneg (u i), ?_⟩
  rw [sq, Finset.sum_mul]
  apply Finset.sum_le_sum
  intro i _
  -- Each square is the product of an absolute value with itself, which is one of those that are added.
  rw [← sq_abs, sq]
  apply mul_le_mul_of_nonneg_left _ (abs_nonneg (u i))
  exact Finset.single_le_sum (fun j _ => abs_nonneg (u j)) (Finset.mem_univ i)

theorem total_abs_le_maxAbs : total (abs (List.ofFn u)) ≤ n * maxAbs (List.ofFn u) := by
  rw [abs_ofFn, total_ofFn]
  have bounded := Finset.sum_le_card_nsmul Finset.univ (fun i => |u i|) (maxAbs (List.ofFn u))
    fun i _ => abs_le_maxAbs u i
  rwa [Finset.card_univ, Fintype.card_fin, nsmul_eq_mul] at bounded

theorem maxAbs_eq_zero_iff : maxAbs (List.ofFn u) = 0 ↔ norm (List.ofFn u) = 0 := by
  constructor
  · intro zero
    have bounded := (norm_le_total_abs u).trans (total_abs_le_maxAbs u)
    rw [zero, mul_zero] at bounded
    exact le_antisymm bounded (norm_nonneg _)
  · intro zero
    exact le_antisymm (zero ▸ maxAbs_le_norm u) (maxAbs_nonneg _)

theorem total_abs_eq_zero_iff : total (abs (List.ofFn u)) = 0 ↔ norm (List.ofFn u) = 0 := by
  constructor
  · intro zero
    exact le_antisymm (zero ▸ norm_le_total_abs u) (norm_nonneg _)
  · intro zero
    have bounded := total_abs_le_maxAbs u
    rw [(maxAbs_eq_zero_iff u).2 zero, mul_zero] at bounded
    exact le_antisymm bounded ((norm_nonneg _).trans (norm_le_total_abs u))

end Vec

/-! ### The Huber loss -/

namespace Huber

variable {huber : Huber ℝ}

/-- The loss charges a part `t` of the norm with the threshold and the rest with half its square, in the
cheapest way. -/
theorem profile_isLeast (threshold : 0 < huber.threshold) (scale : 0 < huber.scale) {e : ℝ}
    (nonneg : 0 ≤ e) :
    IsLeast ((fun t => huber.scale * ((e - t) ^ 2 / 2 + huber.threshold * t)) '' Set.Icc 0 e)
      (huber.profile e) := by
  refine ⟨⟨e - min e huber.threshold, ⟨?_, ?_⟩, ?_⟩, ?_⟩
  · exact sub_nonneg.2 (min_le_left _ _)
  · have inside : 0 ≤ min e huber.threshold := le_min nonneg threshold.le
    linarith
  · -- What lies beyond the threshold is charged with it.
    have excess := huber.threshold_mul_excess e
    rw [profile_eq]
    linear_combination huber.scale * excess
  · rintro _ ⟨t, ⟨ht, _⟩, rfl⟩
    exact profile_le scale threshold nonneg ht (by linarith)

theorem profile_nonneg (scale : 0 < huber.scale) (threshold : 0 < huber.threshold) (e : ℝ) :
    0 ≤ huber.profile e := by
  have line := le_profile scale threshold.le e
  simpa using line

theorem profile_eq_zero_iff (threshold : 0 < huber.threshold) (scale : 0 < huber.scale) {e : ℝ}
    (nonneg : 0 ≤ e) : huber.profile e = 0 ↔ e = 0 := by
  constructor
  · intro zero
    by_contra nonzero
    have positive : 0 < e := lt_of_le_of_ne nonneg (Ne.symm nonzero)
    have slope : 0 < min e huber.threshold := lt_min positive threshold
    have below : min e huber.threshold ≤ e := min_le_left _ _
    rw [profile_eq] at zero
    nlinarith [mul_pos scale (mul_pos slope positive)]
  · rintro rfl
    rw [profile_eq, min_eq_left threshold.le]
    ring

/-- A larger norm costs at least as much. -/
theorem profile_mono (threshold : 0 < huber.threshold) (scale : 0 < huber.scale) {a b : ℝ}
    (nonneg : 0 ≤ a) (le : a ≤ b) : huber.profile a ≤ huber.profile b := by
  have slope : 0 ≤ min a huber.threshold := le_min nonneg threshold.le
  calc huber.profile a
      = huber.scale * (min a huber.threshold * a - min a huber.threshold ^ 2 / 2) :=
        huber.profile_eq a
    _ ≤ huber.scale * (min a huber.threshold * b - min a huber.threshold ^ 2 / 2) := by gcongr
    _ ≤ huber.profile b := le_profile scale (min_le_right _ _) b

/-- At the threshold the quadratic and the linear part agree. -/
theorem value_of_norm_eq {r : List ℝ} (atThreshold : Vec.norm r = huber.threshold) :
    huber.value r = Scalar.half * huber.scale * (Vec.norm r * Vec.norm r) ∧
      huber.value r =
        huber.threshold * huber.scale * (Vec.norm r - Scalar.half * huber.threshold) := by
  rw [value_eq_profile, profile, if_pos atThreshold.le, atThreshold, Scalar.half_real]
  exact ⟨rfl, by ring⟩

end Huber

/-! ### All losses -/

namespace Loss

/-- `d` is the direction that the loss hands out for the residual. Where it hands out none, since the norm
is too small to be divided by, the zero direction stands in for it. -/
def IsDirection (loss : Loss) (huber : Huber ℝ) (r : List ℝ) (d : Fin n → ℝ) : Prop :=
  loss.direction huber r = .ok (some (List.ofFn d)) ∨ loss.direction huber r = .ok none ∧ d = 0

variable {huber : Huber ℝ} (threshold : 0 < huber.threshold) (scale : 0 < huber.scale)

theorem value_euclidSquared (huber : Huber ℝ) (r : List ℝ) :
    Loss.euclidSquared.value huber r = Vec.norm r ^ 2 / 2 := by
  rw [Vec.norm_sq]
  show Scalar.half * Vec.dot r r = Vec.dot r r / 2
  rw [Scalar.half_real]
  ring

include threshold scale

theorem value_nonneg (loss : Loss) (u : Fin n → ℝ) : 0 ≤ loss.value huber (List.ofFn u) := by
  cases loss with
  | abs => exact (Vec.norm_nonneg _).trans (Vec.norm_le_total_abs u)
  | euclid => exact Vec.norm_nonneg _
  | euclidSquared =>
      rw [value_euclidSquared]
      positivity
  | huber => exact Huber.profile_nonneg scale threshold _

/-- All losses vanish for the zero residual only. -/
theorem value_eq_zero_iff (loss : Loss) (u : Fin n → ℝ) :
    loss.value huber (List.ofFn u) = 0 ↔ Vec.norm (List.ofFn u) = 0 := by
  cases loss with
  | abs => exact Vec.total_abs_eq_zero_iff u
  | euclid => rfl
  | euclidSquared =>
      rw [value_euclidSquared, div_eq_zero_iff, sq_eq_zero_iff]
      simp
  | huber => exact Huber.profile_eq_zero_iff threshold scale (Vec.norm_nonneg _)

/-- All losses but the sum of absolute values compare residuals by their norms, even residuals of
different lengths. -/
theorem value_le_of_norm_le {loss : Loss} (normed : loss ≠ .abs) {r s : List ℝ}
    (le : Vec.norm r ≤ Vec.norm s) : loss.value huber r ≤ loss.value huber s := by
  cases loss with
  | abs => exact absurd rfl normed
  | euclid => exact le
  | euclidSquared =>
      have nonneg := Vec.norm_nonneg r
      rw [value_euclidSquared, value_euclidSquared]
      gcongr
  | huber => exact Huber.profile_mono threshold scale (Vec.norm_nonneg r) le

omit scale

/-- Every loss has a direction, and that of the zero residual is zero. -/
theorem exists_isDirection (loss : Loss) (u : Fin n → ℝ) :
    ∃ d : Fin n → ℝ, loss.IsDirection huber (List.ofFn u) d ∧ (u = 0 → d = 0) := by
  cases loss with
  | abs =>
      refine ⟨fun i => Scalar.sign (u i), .inl ?_, ?_⟩
      · exact congrArg (fun v => Except.ok (some v)) List.map_ofFn
      · rintro rfl
        funext i
        exact Scalar.sign_zero_real
  | euclid =>
      by_cases small : Vec.norm (List.ofFn u) ≤ Scalar.smallestNormal
      · exact ⟨0, .inr ⟨if_pos small, rfl⟩, fun _ => rfl⟩
      · refine ⟨fun i => u i / Vec.norm (List.ofFn u), .inl ?_, ?_⟩
        · rw [← Vec.divide_ofFn]
          exact if_neg small
        · rintro rfl
          funext i
          exact zero_div _
  | euclidSquared => exact ⟨u, .inl rfl, id⟩
  | huber =>
      refine ⟨fun i => u i * (huber.scale * huber.share (Vec.norm (List.ofFn u))), .inl ?_, ?_⟩
      · exact congrArg (Except.map some) (Huber.direction_ofFn threshold u)
      · rintro rfl
        funext i
        exact zero_mul _

end Loss

end CompositeModels
