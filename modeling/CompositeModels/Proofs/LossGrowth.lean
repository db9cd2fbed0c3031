/-
Module: CompositeModels.Proofs.LossGrowth
Purpose: Losses of the residual of a nearest point, as functions of the vector that is projected. Along
  the direction that a loss hands out it grows at least linearly, and for the squared loss and the Huber
  loss at most quadratically beyond that. The projection itself need not be smooth: only the variational
  inequality of the nearest point is used. The Huber loss is quadratic near the set and linear beyond
  its threshold, and both bounds hold across the threshold.
Main exports: lossAt, dot_residual_le, Huber.profile, Huber.le_profile, Huber.profile_le,
  Loss.growth_euclid, Loss.growth_euclidSquared, Loss.growth_huber
-/
import CompositeModels.Proofs.NearestPoint

namespace CompositeModels

variable {n : ℕ} {S : Set (Fin n → ℝ)} {P : (Fin n → ℝ) → Fin n → ℝ}

/-- The loss of what is left of a vector by the map `P`. -/
noncomputable def lossAt (loss : Loss) (huber : Huber ℝ) (P : (Fin n → ℝ) → Fin n → ℝ)
    (u : Fin n → ℝ) : ℝ :=
  loss.value huber (List.ofFn fun i => u i - P u i)

/-- The norm of what is left of a vector by the map `P`. -/
noncomputable def residualNorm (P : (Fin n → ℝ) → Fin n → ℝ) (u : Fin n → ℝ) : ℝ :=
  Vec.norm (List.ofFn fun i => u i - P u i)

theorem residualNorm_nonneg (P : (Fin n → ℝ) → Fin n → ℝ) (u : Fin n → ℝ) : 0 ≤ residualNorm P u :=
  Vec.norm_nonneg _

theorem residualNorm_sq (P : (Fin n → ℝ) → Fin n → ℝ) (u : Fin n → ℝ) :
    residualNorm P u ^ 2 = ∑ i, (u i - P u i) ^ 2 :=
  Vec.norm_ofFn_sq _

/-! ### Residuals of nearest points -/

/-- The norm of the residual grows along the residual. -/
theorem dot_residual_le (convex : Convex ℝ S) (nearest : ∀ v, IsNearest S v (P v))
    (c u : Fin n → ℝ) :
    ∑ i, (c i - P c i) * (u i - c i) ≤
      residualNorm P c * (residualNorm P u - residualNorm P c) := by
  have normal := ((isNearest_iff_isNormal convex).1 (nearest c)).2 (P u) (nearest u).member
  have schwarz := Vec.sum_mul_le_norm_mul_norm (fun i => c i - P c i) fun i => u i - P u i
  have square := residualNorm_sq P c
  -- The step is the change of the residual and that of the nearest point.
  have split : ∑ i, (c i - P c i) * (u i - c i) =
      ∑ i, (c i - P c i) * (u i - P u i) - ∑ i, (c i - P c i) ^ 2 +
        ∑ i, (c i - P c i) * (P u i - P c i) := by
    rw [← Finset.sum_sub_distrib, ← Finset.sum_add_distrib]
    exact Finset.sum_congr rfl fun i _ => by ring
  have expanded : residualNorm P c * (residualNorm P u - residualNorm P c) =
      residualNorm P c * residualNorm P u - residualNorm P c ^ 2 := by ring
  rw [split, expanded, square]
  simp only [residualNorm]
  linarith

theorem dot_scaled_residual (P : (Fin n → ℝ) → Fin n → ℝ) (c u : Fin n → ℝ) (factor : ℝ) :
    ∑ i, (c i - P c i) * factor * (u i - c i) = factor * ∑ i, (c i - P c i) * (u i - c i) := by
  rw [Finset.mul_sum]
  exact Finset.sum_congr rfl fun i _ => by ring

/-- The norm of the residual grows along a multiple of the residual. -/
theorem dot_scaled_residual_le (convex : Convex ℝ S) (nearest : ∀ v, IsNearest S v (P v))
    (c u : Fin n → ℝ) {factor : ℝ} (nonneg : 0 ≤ factor) :
    ∑ i, (c i - P c i) * factor * (u i - c i) ≤
      factor * residualNorm P c * (residualNorm P u - residualNorm P c) := by
  rw [dot_scaled_residual, mul_assoc]
  exact mul_le_mul_of_nonneg_left (dot_residual_le convex nearest c u) nonneg

/-- The residual is the least of all differences from members of the set. -/
theorem residualNorm_le (nearest : ∀ v, IsNearest S v (P v)) (u : Fin n → ℝ) {s : Fin n → ℝ}
    (member : s ∈ S) : residualNorm P u ≤ Vec.norm (List.ofFn fun i => u i - s i) :=
  (nearest u).norm_residual_le member

/-- A share of the residual at `c` may join the step, and the rest of it is added. -/
theorem residualNorm_le_share (nearest : ∀ v, IsNearest S v (P v)) (c u : Fin n → ℝ) {g : ℝ}
    (atMost : g ≤ 1) :
    residualNorm P u ≤
      Vec.norm (List.ofFn fun i => (u i - c i) + g * (c i - P c i)) + (1 - g) * residualNorm P c := by
  have joined := Vec.norm_add_le (fun i => (u i - c i) + g * (c i - P c i))
    fun i => (1 - g) * (c i - P c i)
  rw [Vec.norm_scale_ofFn, abs_of_nonneg (sub_nonneg.2 atMost)] at joined
  refine (residualNorm_le nearest u (nearest c).member).trans (le_of_eq_of_le ?_ joined)
  congr 2
  funext i
  ring

theorem norm_step_add_share_sq (P : (Fin n → ℝ) → Fin n → ℝ) (c u : Fin n → ℝ) (g : ℝ) :
    Vec.norm (List.ofFn fun i => (u i - c i) + g * (c i - P c i)) ^ 2 =
      ∑ i, (u i - c i) ^ 2 + 2 * g * ∑ i, (c i - P c i) * (u i - c i) +
        (g * residualNorm P c) ^ 2 := by
  rw [Vec.norm_ofFn_sq, mul_pow, residualNorm_sq, Finset.mul_sum, Finset.mul_sum,
    ← Finset.sum_add_distrib, ← Finset.sum_add_distrib]
  exact Finset.sum_congr rfl fun i _ => by ring

/-! ### The norm and its square -/

namespace Loss

variable (huber : Huber ℝ) (convex : Convex ℝ S) (nearest : ∀ v, IsNearest S v (P v))
include convex nearest

/-- The norm grows along the unit residual, where it is not zero. -/
theorem growth_euclid {c : Fin n → ℝ} (away : 0 < residualNorm P c) (u : Fin n → ℝ) :
    lossAt .euclid huber P c + ∑ i, (c i - P c i) * (residualNorm P c)⁻¹ * (u i - c i) ≤
      lossAt .euclid huber P u := by
  have along := dot_scaled_residual_le convex nearest c u (inv_pos.2 away).le
  rw [inv_mul_cancel₀ away.ne', one_mul] at along
  show residualNorm P c + _ ≤ residualNorm P u
  linarith

/-- Half the squared norm grows along the residual at least, and by half the squared step more at
most. -/
theorem growth_euclidSquared (c u : Fin n → ℝ) :
    lossAt .euclidSquared huber P c + ∑ i, (c i - P c i) * (u i - c i) ≤
        lossAt .euclidSquared huber P u ∧
      lossAt .euclidSquared huber P u ≤
        lossAt .euclidSquared huber P c + ∑ i, (c i - P c i) * (u i - c i) +
          1 / 2 * ∑ i, (u i - c i) ^ 2 := by
  have value : ∀ v, lossAt .euclidSquared huber P v =
      1 / 2 * scaledSquaredDistance (fun _ => 1) v (P v) := by
    intro v
    simp only [lossAt, value, Vec.dot_ofFn, Scalar.half_real, scaledSquaredDistance_one,
      squaredDistance, sq]
  have normal := ((isNearest_iff_isNormal convex).1 (nearest c)).2 (P u) (nearest u).member
  have least := (nearest u).least (P c) (nearest c).member
  rw [← scaledSquaredDistance_one, ← scaledSquaredDistance_one] at least
  have obtuse : ∑ i, (c i - P c i) / 1 * (P u i - P c i) ≤ 0 := by
    simpa only [div_one] using normal
  have growth := half_scaledSquaredDistance_growth (fun _ => one_pos) obtuse least
  simp only [div_one, scaledSquaredDistance_one u c, squaredDistance] at growth
  rw [value, value]
  rcases growth with ⟨lower, upper⟩
  constructor
  · linarith
  · linarith

end Loss

/-! ### The Huber loss -/

namespace Huber

variable (huber : Huber ℝ)

/-- The Huber loss as a function of the norm. -/
noncomputable def profile (e : ℝ) : ℝ :=
  if e ≤ huber.threshold then Scalar.half * huber.scale * (e * e)
  else huber.threshold * huber.scale * (e - Scalar.half * huber.threshold)

theorem value_eq_profile (r : List ℝ) : huber.value r = huber.profile (Vec.norm r) := rfl

/-- The part of the norm up to the threshold decides about the slope. -/
theorem profile_eq (e : ℝ) : huber.profile e =
    huber.scale * (min e huber.threshold * e - min e huber.threshold ^ 2 / 2) := by
  rw [profile, Scalar.half_real]
  split
  · next below =>
      rw [min_eq_left below]
      ring
  · next above =>
      rw [min_eq_right (not_le.1 above).le]
      ring

/-- What lies beyond the threshold is charged with the threshold. -/
theorem threshold_mul_excess (e : ℝ) : huber.threshold * (e - min e huber.threshold) =
    min e huber.threshold * (e - min e huber.threshold) := by
  rcases le_total e huber.threshold with below | above
  · rw [min_eq_left below, sub_self, mul_zero, mul_zero]
  · rw [min_eq_right above]

section

variable {huber} (scale : 0 < huber.scale)
include scale

/-- The loss is above each line with a slope up to the threshold that touches the parabola. -/
theorem le_profile {t : ℝ} (slope : t ≤ huber.threshold) (e : ℝ) :
    huber.scale * (t * e - t ^ 2 / 2) ≤ huber.profile e := by
  rw [profile_eq]
  apply mul_le_mul_of_nonneg_left _ scale.le
  rcases le_total e huber.threshold with below | above
  · rw [min_eq_left below]
    nlinarith [sq_nonneg (e - t)]
  · rw [min_eq_right above]
    nlinarith

/-- The loss of a sum is below the square of the first part and a multiple of the second. -/
theorem profile_le (threshold : 0 < huber.threshold) {e a b : ℝ} (he : 0 ≤ e) (hb : 0 ≤ b)
    (sum : e ≤ a + b) : huber.profile e ≤ huber.scale * (a ^ 2 / 2 + huber.threshold * b) := by
  rw [profile_eq]
  apply mul_le_mul_of_nonneg_left _ scale.le
  rcases le_total e huber.threshold with below | above
  · rw [min_eq_left below]
    -- The parabola is below its tangent at the first part, whose slope is at most the threshold.
    rcases le_total e a with small | large
    · nlinarith
    · nlinarith
  · rw [min_eq_right above]
    nlinarith [sq_nonneg (a - huber.threshold)]

end

/-- The share of the residual that lies within the threshold. -/
noncomputable def share (e : ℝ) : ℝ := if e ≤ huber.threshold then 1 else huber.threshold / e

variable {huber} (threshold : 0 < huber.threshold)
include threshold

theorem share_nonneg (e : ℝ) : 0 ≤ huber.share e := by
  rw [share]
  split
  · exact zero_le_one
  · next above => exact div_nonneg threshold.le (threshold.trans (not_le.1 above)).le

theorem share_le_one (e : ℝ) : huber.share e ≤ 1 := by
  rw [share]
  split
  · exact le_refl 1
  · next above =>
      have beyond := not_le.1 above
      exact (div_le_one (threshold.trans beyond)).2 beyond.le

theorem share_mul (e : ℝ) : huber.share e * e = min e huber.threshold := by
  rw [share]
  split
  · next below => rw [min_eq_left below, one_mul]
  · next above =>
      have beyond := not_le.1 above
      rw [min_eq_right beyond.le, div_mul_cancel₀ _ (threshold.trans beyond).ne']

/-- The loss always has a direction, a multiple of the residual. -/
theorem direction_ofFn (r : Fin n → ℝ) : huber.direction (List.ofFn r) =
    .ok (List.ofFn fun i => r i * (huber.scale * huber.share (Vec.norm (List.ofFn r)))) := by
  rw [direction, share]
  by_cases below : Vec.norm (List.ofFn r) ≤ huber.threshold
  · rw [if_pos below, if_pos below, Vec.scale_ofFn, mul_one]
  · have nonzero : Vec.norm (List.ofFn r) ≠ 0 := (threshold.trans (not_le.1 below)).ne'
    have undivided : ¬ (Vec.norm (List.ofFn r) == 0) = true := fun same => nonzero (eq_of_beq same)
    rw [if_neg below, if_neg undivided, if_neg below, Vec.scale_ofFn, mul_comm huber.threshold,
      mul_div_assoc]

end Huber

/-- The Huber loss grows along its direction at least, and by half the squared step times its scale more
at most. -/
theorem Loss.growth_huber {huber : Huber ℝ} (convex : Convex ℝ S)
    (nearest : ∀ v, IsNearest S v (P v)) (threshold : 0 < huber.threshold) (scale : 0 < huber.scale)
    (c u : Fin n → ℝ) :
    lossAt .huber huber P c + ∑ i,
        (c i - P c i) * (huber.scale * huber.share (residualNorm P c)) * (u i - c i) ≤
        lossAt .huber huber P u ∧
      lossAt .huber huber P u ≤
        lossAt .huber huber P c + ∑ i,
          (c i - P c i) * (huber.scale * huber.share (residualNorm P c)) * (u i - c i) +
            huber.scale / 2 * ∑ i, (u i - c i) ^ 2 := by
  have value : ∀ v, lossAt .huber huber P v = huber.profile (residualNorm P v) :=
    fun _ => huber.value_eq_profile _
  have inside := Huber.share_mul threshold (residualNorm P c)
  have shareNonneg := Huber.share_nonneg threshold (residualNorm P c)
  have shareLe := Huber.share_le_one threshold (residualNorm P c)
  have atC := huber.profile_eq (residualNorm P c)
  have excess := huber.threshold_mul_excess (residualNorm P c)
  have slopeLe : min (residualNorm P c) huber.threshold ≤ huber.threshold := min_le_right _ _
  rw [value, value]
  generalize min (residualNorm P c) huber.threshold = t at *
  generalize huber.share (residualNorm P c) = g at *
  constructor
  · have along := dot_scaled_residual_le convex nearest c u (mul_nonneg scale.le shareNonneg)
    have line := Huber.le_profile scale slopeLe (residualNorm P u)
    rw [mul_assoc huber.scale, inside] at along
    linarith
  · -- The part of the residual within the threshold joins the step, the rest is linear.
    have apart := residualNorm_le_share nearest c u shareLe
    have rest : (1 - g) * residualNorm P c = residualNorm P c - t := by
      rw [sub_mul, one_mul, inside]
    have restNonneg : 0 ≤ (1 - g) * residualNorm P c :=
      mul_nonneg (sub_nonneg.2 shareLe) (residualNorm_nonneg P c)
    have bound := Huber.profile_le scale threshold (residualNorm_nonneg P u) restNonneg apart
    rw [norm_step_add_share_sq, inside, rest, excess] at bound
    rw [dot_scaled_residual, mul_assoc huber.scale, atC]
    nlinarith

/-! ### Directions -/

/-- The direction that a loss hands out for the residual at `c`. The norm has none where the residual is
zero, and the zero direction belongs to it there. Along the direction the loss grows at least linearly, and
the two losses that are smooth grow quadratically at most. -/
theorem Loss.exists_direction {loss : Loss} {huber : Huber ℝ} (smooth : loss ≠ .abs)
    (convex : Convex ℝ S) (nearest : ∀ v, IsNearest S v (P v)) (threshold : 0 < huber.threshold)
    (scale : 0 < huber.scale) {c : Fin n → ℝ}
    (away : loss = .euclid → residualNorm P c = 0 ∨ Scalar.smallestNormal < residualNorm P c) :
    ∃ d : Fin n → ℝ,
      (loss = .euclid ∧ residualNorm P c = 0 →
        d = 0 ∧ loss.direction huber (List.ofFn fun i => c i - P c i) = .ok none) ∧
      (¬ (loss = .euclid ∧ residualNorm P c = 0) →
        loss.direction huber (List.ofFn fun i => c i - P c i) = .ok (some (List.ofFn d))) ∧
      (∀ u, lossAt loss huber P c + ∑ i, d i * (u i - c i) ≤ lossAt loss huber P u) ∧
      (loss = .euclidSquared → ∀ u, lossAt loss huber P u ≤
        lossAt loss huber P c + ∑ i, d i * (u i - c i) + 1 / 2 * ∑ i, (u i - c i) ^ 2) ∧
      (loss = .huber → ∀ u, lossAt loss huber P u ≤
        lossAt loss huber P c + ∑ i, d i * (u i - c i) +
          huber.scale / 2 * ∑ i, (u i - c i) ^ 2) := by
  cases loss with
  | abs => exact absurd rfl smooth
  | euclid =>
      by_cases zero : residualNorm P c = 0
      · have small : residualNorm P c ≤ Scalar.smallestNormal := zero ▸ Scalar.smallestNormal_pos.le
        refine ⟨0, fun _ => ⟨rfl, if_pos small⟩, fun away => absurd ⟨rfl, zero⟩ away, fun u => ?_,
          ?_, ?_⟩
        · simp only [Pi.zero_apply, zero_mul, Finset.sum_const_zero, add_zero]
          exact le_of_eq_of_le zero (residualNorm_nonneg P u)
        · intro other
          cases other
        · intro other
          cases other
      · have large : Scalar.smallestNormal < residualNorm P c := (away rfl).resolve_left zero
        have divided : Loss.euclid.direction huber (List.ofFn fun i => c i - P c i) =
            .ok (some (Vec.divide (List.ofFn fun i => c i - P c i) (residualNorm P c))) :=
          if_neg (not_le.2 large)
        refine ⟨fun i => (c i - P c i) * (residualNorm P c)⁻¹, fun atZero => absurd atZero.2 zero,
          fun _ => ?_,
          Loss.growth_euclid huber convex nearest (Scalar.smallestNormal_pos.trans large), ?_, ?_⟩
        · simp only [divided, Vec.divide_ofFn, div_eq_mul_inv]
        · intro other
          cases other
        · intro other
          cases other
  | euclidSquared =>
      have growth := Loss.growth_euclidSquared huber convex nearest c
      refine ⟨fun i => c i - P c i, ?_, fun _ => rfl, fun u => (growth u).1,
        fun _ u => (growth u).2, ?_⟩
      · rintro ⟨other, _⟩
        cases other
      · intro other
        cases other
  | huber =>
      have growth := Loss.growth_huber convex nearest threshold scale c
      refine ⟨fun i => (c i - P c i) * (huber.scale * huber.share (residualNorm P c)), ?_,
        fun _ => ?_, fun u => (growth u).1, ?_, fun _ u => (growth u).2⟩
      · rintro ⟨other, _⟩
        cases other
      · exact congrArg (Except.map some) (Huber.direction_ofFn threshold fun i => c i - P c i)
      · intro other
        cases other

end CompositeModels
