/-
Module: CompositeModels.Proofs.NearestPoint
Purpose: Nearest points of convex sets, in the Euclidean metric and in the metrics in which each squared
  difference of entries is divided by a scale of its own. A point is nearest exactly if the scaled
  residual is normal to the set there. The nearest points of a set are the same in all these metrics
  exactly if membership is decided entry by entry. Half the squared distance from the set grows along the
  residual at least, and quadratically beyond that at most.
Main exports: squaredDistance, scaledSquaredDistance, IsNearest, IsNormal, Entrywise,
  scaledSquaredDistance_le_iff_isNormal, isNearest_iff_isNormal, IsNearest.unique,
  isNormal_div_of_entrywise, exists_scale_of_not_entrywise, half_scaledSquaredDistance_growth,
  centeredBall, isNearest_centeredBall, Model.ProjectsOnto, Model.ProjectsAs
-/
import CompositeModels.Proofs.Session
import Mathlib.Analysis.Convex.Basic
import Mathlib.Analysis.InnerProductSpace.Basic

namespace CompositeModels

variable {n : ℕ}

/-- The sum of the squared differences of the entries. -/
def squaredDistance (w s : Fin n → ℝ) : ℝ := ∑ i, (w i - s i) ^ 2

/-- The sum of the squared differences of the entries, each divided by its scale. -/
noncomputable def scaledSquaredDistance (scale w s : Fin n → ℝ) : ℝ := ∑ i, (w i - s i) ^ 2 / scale i

/-- No direction from `z` into the set makes an acute angle with `d`. -/
def IsNormal (S : Set (Fin n → ℝ)) (z d : Fin n → ℝ) : Prop :=
  ∀ s ∈ S, ∑ i, d i * (s i - z i) ≤ 0

/-- `z` belongs to `S`, and no member of `S` is nearer to `w`. -/
structure IsNearest (S : Set (Fin n → ℝ)) (w z : Fin n → ℝ) : Prop where
  member : z ∈ S
  least : ∀ s ∈ S, squaredDistance w z ≤ squaredDistance w s

/-- What has each of its entries from some member is a member. Among the convex sets these are the
boxes, with or without bounds. -/
def Entrywise (S : Set (Fin n → ℝ)) : Prop :=
  ∀ s : Fin n → ℝ, (∀ i, ∃ t ∈ S, t i = s i) → s ∈ S

theorem scaledSquaredDistance_one (w s : Fin n → ℝ) :
    scaledSquaredDistance (fun _ => 1) w s = squaredDistance w s := by
  simp [scaledSquaredDistance, squaredDistance]

theorem scaledSquaredDistance_nonneg {scale : Fin n → ℝ} (positive : ∀ i, 0 < scale i)
    (w s : Fin n → ℝ) : 0 ≤ scaledSquaredDistance scale w s := by
  apply Finset.sum_nonneg
  intro i _
  exact div_nonneg (sq_nonneg _) (positive i).le

theorem scaledSquaredDistance_eq_zero_iff {scale : Fin n → ℝ} (positive : ∀ i, 0 < scale i)
    (w s : Fin n → ℝ) : scaledSquaredDistance scale w s = 0 ↔ w = s := by
  rw [scaledSquaredDistance, Finset.sum_eq_zero_iff_of_nonneg fun i _ =>
    div_nonneg (sq_nonneg _) (positive i).le, funext_iff]
  simp [(positive _).ne', sub_eq_zero]

/-- A point of the set is nearest to itself, and no other point is. -/
theorem IsNearest.mem_iff {S : Set (Fin n → ℝ)} {w z : Fin n → ℝ} (nearest : IsNearest S w z) :
    w ∈ S ↔ w = z := by
  have zero : squaredDistance w w = 0 := by simp [squaredDistance]
  constructor
  · intro member
    have le : squaredDistance w z ≤ 0 := zero ▸ nearest.least w member
    rw [← scaledSquaredDistance_one] at le
    have ge := scaledSquaredDistance_nonneg (fun _ => one_pos) w z
    exact (scaledSquaredDistance_eq_zero_iff (fun _ => one_pos) w z).1 (le_antisymm le ge)
  · rintro rfl
    exact nearest.member

/-- What is left of a point is shortest at its nearest point. -/
theorem IsNearest.norm_residual_le {S : Set (Fin n → ℝ)} {w z s : Fin n → ℝ}
    (nearest : IsNearest S w z) (member : s ∈ S) :
    Vec.norm (List.ofFn fun i => w i - z i) ≤ Vec.norm (List.ofFn fun i => w i - s i) := by
  apply Vec.norm_le_of_sq_le
  rw [Vec.norm_ofFn_sq, Vec.norm_ofFn_sq]
  exact nearest.least s member

/-- Moving from `z` towards `s` changes the squared distance by a linear and a quadratic term. -/
theorem scaledSquaredDistance_towards (scale w z s : Fin n → ℝ) (t : ℝ) :
    scaledSquaredDistance scale w (fun i => z i + t * (s i - z i)) =
      scaledSquaredDistance scale w z - 2 * t * ∑ i, (w i - z i) / scale i * (s i - z i) +
        t ^ 2 * scaledSquaredDistance scale s z := by
  simp only [scaledSquaredDistance, Finset.mul_sum]
  rw [← Finset.sum_sub_distrib, ← Finset.sum_add_distrib]
  apply Finset.sum_congr rfl
  intro i _
  ring

/-- In a convex set, a point is nearest exactly if the scaled residual is normal there. -/
theorem scaledSquaredDistance_le_iff_isNormal {S : Set (Fin n → ℝ)} (convex : Convex ℝ S)
    {scale w z : Fin n → ℝ} (positive : ∀ i, 0 < scale i) (member : z ∈ S) :
    (∀ s ∈ S, scaledSquaredDistance scale w z ≤ scaledSquaredDistance scale w s) ↔
      IsNormal S z fun i => (w i - z i) / scale i := by
  constructor
  · intro least s hs
    by_contra acute
    have acute : 0 < ∑ i, (w i - z i) / scale i * (s i - z i) := not_le.1 acute
    generalize inner : ∑ i, (w i - z i) / scale i * (s i - z i) = a at acute
    have length : 0 ≤ scaledSquaredDistance scale s z := scaledSquaredDistance_nonneg positive s z
    generalize quadratic : scaledSquaredDistance scale s z = b at length
    -- A step this short stays in the set, and the linear term outweighs the quadratic one.
    have stepPositive : 0 < a / (a + b) := div_pos acute (by linarith)
    have stepLe : a / (a + b) ≤ 1 := (div_le_one (by linarith)).2 (by linarith)
    have moved : (fun i => z i + a / (a + b) * (s i - z i)) ∈ S :=
      convex.add_smul_sub_mem member hs ⟨stepPositive.le, stepLe⟩
    have closer := least _ moved
    rw [scaledSquaredDistance_towards, inner, quadratic] at closer
    have short : a / (a + b) * b ≤ a := by
      rw [div_mul_eq_mul_div, div_le_iff₀ (by linarith)]
      nlinarith
    nlinarith
  · intro normal s hs
    have expansion := scaledSquaredDistance_towards scale w z s 1
    have endpoint : (fun i => z i + 1 * (s i - z i)) = s := by
      funext i
      ring
    rw [endpoint] at expansion
    have linear := normal s hs
    have quadratic := scaledSquaredDistance_nonneg positive s z
    linarith

/-- The case of the Euclidean metric. -/
theorem isNearest_iff_isNormal {S : Set (Fin n → ℝ)} (convex : Convex ℝ S) {w z : Fin n → ℝ} :
    IsNearest S w z ↔ z ∈ S ∧ IsNormal S z fun i => w i - z i := by
  have general : ∀ member : z ∈ S, (∀ s ∈ S, scaledSquaredDistance (fun _ => 1) w z ≤
      scaledSquaredDistance (fun _ => 1) w s) ↔ IsNormal S z fun i => (w i - z i) / 1 :=
    fun member => scaledSquaredDistance_le_iff_isNormal convex (fun _ => one_pos) member
  simp only [scaledSquaredDistance_one, div_one] at general
  constructor
  · rintro ⟨member, least⟩
    exact ⟨member, (general member).1 least⟩
  · rintro ⟨member, normal⟩
    exact ⟨member, (general member).2 normal⟩

/-- A convex set has one nearest point at most. -/
theorem IsNearest.unique {S : Set (Fin n → ℝ)} (convex : Convex ℝ S) {w z s : Fin n → ℝ}
    (nearest : IsNearest S w z) (other : IsNearest S w s) : s = z := by
  have normal := ((isNearest_iff_isNormal convex).1 nearest).2 s other.member
  have least := other.least z nearest.member
  have expansion := scaledSquaredDistance_towards (fun _ => 1) w z s 1
  have endpoint : (fun i => z i + 1 * (s i - z i)) = s := by
    funext i
    ring
  simp only [endpoint, scaledSquaredDistance_one, div_one] at expansion
  -- Beside the linear term there is no room for the quadratic one.
  have zero : scaledSquaredDistance (fun _ => 1) s z = 0 := by
    apply le_antisymm _ (scaledSquaredDistance_nonneg (fun _ => one_pos) s z)
    rw [scaledSquaredDistance_one]
    linarith
  exact (scaledSquaredDistance_eq_zero_iff (fun _ => one_pos) s z).1 zero

/-- Scaling by one number does not matter. -/
theorem isNormal_div {S : Set (Fin n → ℝ)} {z d : Fin n → ℝ} (normal : IsNormal S z d) {scale : ℝ}
    (positive : 0 < scale) : IsNormal S z fun i => d i / scale := by
  intro s hs
  have factored : ∑ i, d i / scale * (s i - z i) = (∑ i, d i * (s i - z i)) / scale := by
    rw [Finset.sum_div]
    apply Finset.sum_congr rfl
    intro i _
    ring
  rw [factored]
  exact div_nonpos_of_nonpos_of_nonneg (normal s hs) positive.le

/-- Where membership is decided entry by entry, each entry may be scaled on its own. -/
theorem isNormal_div_of_entrywise {S : Set (Fin n → ℝ)} (entrywise : Entrywise S)
    {z d : Fin n → ℝ} (member : z ∈ S) (normal : IsNormal S z d) {scale : Fin n → ℝ}
    (positive : ∀ i, 0 < scale i) : IsNormal S z fun i => d i / scale i := by
  intro s hs
  apply Finset.sum_nonpos
  intro i _
  -- Only entry `i` moves from `z` to `s`.
  have moved : Function.update z i (s i) ∈ S := by
    apply entrywise
    intro j
    by_cases same : j = i
    · exact ⟨s, hs, by rw [same, Function.update_self]⟩
    · exact ⟨z, member, by rw [Function.update_of_ne same]⟩
  have entry : ∑ j, d j * (Function.update z i (s i) j - z j) = d i * (s i - z i) := by
    rw [Finset.sum_eq_single i]
    · rw [Function.update_self]
    · intro j _ different
      rw [Function.update_of_ne different, sub_self, mul_zero]
    · exact fun absent => absurd (Finset.mem_univ i) absent
  have nonpositive := normal _ moved
  rw [entry] at nonpositive
  rw [div_mul_eq_mul_div]
  exact div_nonpos_of_nonpos_of_nonneg nonpositive (positive i).le

/-- Where membership is not decided entry by entry, some point lies outside, and its residual is no
longer normal in suitable scales. -/
theorem exists_scale_of_not_entrywise {S : Set (Fin n → ℝ)} (coupled : ¬ Entrywise S) :
    ∃ w : Fin n → ℝ, ∀ z ∈ S, ∃ scale : Fin n → ℝ, (∀ i, 0 < scale i) ∧
      ¬ IsNormal S z fun i => (w i - z i) / scale i := by
  simp only [Entrywise, not_forall] at coupled
  rcases coupled with ⟨w, entries, outside⟩
  refine ⟨w, fun z member => ?_⟩
  have different : ∃ i, w i ≠ z i := by
    by_contra same
    simp only [ne_eq, not_exists, not_not] at same
    exact outside (funext same ▸ member)
  rcases different with ⟨i, different⟩
  rcases entries i with ⟨t, ht, entry⟩
  -- The term of entry `i` is positive, and a small scale makes it outweigh the others.
  have square : 0 < (w i - z i) ^ 2 := sq_pos_of_ne_zero (sub_ne_zero.2 different)
  generalize unscaled : ∑ j, (w j - z j) * (t j - z j) = r
  have weight : 0 < 1 + (|r| + 1) / (w i - z i) ^ 2 := by positivity
  refine ⟨fun j => if j = i then (1 + (|r| + 1) / (w i - z i) ^ 2)⁻¹ else 1, ?_, ?_⟩
  · intro j
    dsimp only
    split
    · exact inv_pos.2 weight
    · exact one_pos
  · intro normal
    have nonpositive := normal t ht
    have terms : ∀ j, (w j - z j) / (if j = i then (1 + (|r| + 1) / (w i - z i) ^ 2)⁻¹ else 1) *
        (t j - z j) = (w j - z j) * (t j - z j) + if j = i then |r| + 1 else 0 := by
      intro j
      split
      · next same =>
          rw [same, entry]
          field_simp
      · rw [div_one, add_zero]
    rw [Finset.sum_congr rfl fun j _ => terms j, Finset.sum_add_distrib, unscaled,
      Finset.sum_ite_eq' Finset.univ i, if_pos (Finset.mem_univ i)] at nonpositive
    have bound := neg_abs_le r
    linarith

/-- The squared distance after a change of both points, in terms of that before it. -/
theorem scaledSquaredDistance_expand (scale w v z s : Fin n → ℝ) :
    scaledSquaredDistance scale v s = scaledSquaredDistance scale w z +
      2 * ∑ i, (w i - z i) / scale i * (v i - w i) - 2 * ∑ i, (w i - z i) / scale i * (s i - z i) +
        scaledSquaredDistance scale (fun i => v i - w i) (fun i => s i - z i) := by
  simp only [scaledSquaredDistance, Finset.mul_sum]
  rw [← Finset.sum_add_distrib, ← Finset.sum_sub_distrib, ← Finset.sum_add_distrib]
  apply Finset.sum_congr rfl
  intro i _
  ring

/-- Half the squared distance to a nearest point grows along the scaled residual at least, and by half
the squared step more at most. The lower bound needs that the residual at `w` is obtuse towards the
nearest point `s` of `v`, the upper bound that the nearest point `z` of `w` is not nearer to `v`. -/
theorem half_scaledSquaredDistance_growth {scale w v z s : Fin n → ℝ} (positive : ∀ i, 0 < scale i)
    (obtuse : ∑ i, (w i - z i) / scale i * (s i - z i) ≤ 0)
    (least : scaledSquaredDistance scale v s ≤ scaledSquaredDistance scale v z) :
    0 ≤ 1 / 2 * scaledSquaredDistance scale v s - 1 / 2 * scaledSquaredDistance scale w z -
        ∑ i, (w i - z i) / scale i * (v i - w i) ∧
      1 / 2 * scaledSquaredDistance scale v s - 1 / 2 * scaledSquaredDistance scale w z -
        ∑ i, (w i - z i) / scale i * (v i - w i) ≤ 1 / 2 * scaledSquaredDistance scale v w := by
  constructor
  · have expanded := scaledSquaredDistance_expand scale w v z s
    have square := scaledSquaredDistance_nonneg positive (fun i => v i - w i) (fun i => s i - z i)
    linarith
  · have expanded := scaledSquaredDistance_expand scale w v z z
    have unmoved : scaledSquaredDistance scale (fun i => v i - w i) (fun i => z i - z i) =
        scaledSquaredDistance scale v w := by
      simp only [scaledSquaredDistance, sub_self, sub_zero]
    have nothing : ∑ i, (w i - z i) / scale i * (z i - z i) = 0 := by
      simp only [sub_self, mul_zero, Finset.sum_const_zero]
    linarith

/-! ### The ball -/

/-- The vectors of norm `radius` at most. -/
def centeredBall (n : ℕ) (radius : ℝ) : Set (Fin n → ℝ) := {s | ∑ i, s i ^ 2 ≤ radius ^ 2}

theorem convex_centeredBall (radius : ℝ) : Convex ℝ (centeredBall n radius) := by
  intro u hu v hv a b ha hb sum
  have hu : ∑ i, u i ^ 2 ≤ radius ^ 2 := hu
  have hv : ∑ i, v i ^ 2 ≤ radius ^ 2 := hv
  show ∑ i, (a * u i + b * v i) ^ 2 ≤ radius ^ 2
  calc ∑ i, (a * u i + b * v i) ^ 2
      ≤ ∑ i, (a * u i ^ 2 + b * v i ^ 2) := by
        apply Finset.sum_le_sum
        intro i _
        -- The difference of the two sides is `a * b * (u i - v i) ^ 2`.
        obtain rfl : b = 1 - a := by linarith
        nlinarith [mul_nonneg (mul_nonneg ha hb) (sq_nonneg (u i - v i))]
    _ = a * ∑ i, u i ^ 2 + b * ∑ i, v i ^ 2 := by
        rw [Finset.sum_add_distrib, Finset.mul_sum, Finset.mul_sum]
    _ ≤ a * radius ^ 2 + b * radius ^ 2 := by
        gcongr
    _ = radius ^ 2 := by
        rw [← add_mul, sum, one_mul]

theorem isClosed_centeredBall (radius : ℝ) : IsClosed (centeredBall n radius) :=
  isClosed_le (by fun_prop) continuous_const

/-- A point outside is moved along its ray, and what is left of it is normal to the ball. -/
theorem isNearest_centeredBall {radius : ℝ} (nonneg : 0 ≤ radius) (v : Fin n → ℝ) :
    IsNearest (centeredBall n radius) v fun i =>
      if √(∑ j, v j ^ 2) ≤ radius then v i else v i * (radius / √(∑ j, v j ^ 2)) := by
  generalize normEq : √(∑ j, v j ^ 2) = norm
  have square : ∑ j, v j ^ 2 = norm ^ 2 := by
    rw [← normEq, Real.sq_sqrt (Finset.sum_nonneg fun j _ => sq_nonneg (v j))]
  by_cases inside : norm ≤ radius
  · have nonnegNorm : 0 ≤ norm := normEq ▸ Real.sqrt_nonneg _
    simp only [if_pos inside]
    constructor
    · show ∑ j, v j ^ 2 ≤ radius ^ 2
      rw [square]
      gcongr
    · intro s _
      have same : squaredDistance v v = 0 := by simp [squaredDistance]
      rw [same]
      exact Finset.sum_nonneg fun j _ => sq_nonneg _
  · have outside : radius < norm := not_le.1 inside
    have positive : 0 < norm := lt_of_le_of_lt nonneg outside
    simp only [if_neg inside]
    rw [isNearest_iff_isNormal (convex_centeredBall radius)]
    constructor
    · show ∑ j, (v j * (radius / norm)) ^ 2 ≤ radius ^ 2
      simp only [mul_pow]
      rw [← Finset.sum_mul, square]
      apply le_of_eq
      field_simp
    · intro s hs
      have hs : ∑ j, s j ^ 2 ≤ radius ^ 2 := hs
      have schwarz : ∑ j, v j * s j ≤ norm * radius := by
        have bound := Finset.sum_mul_sq_le_sq_mul_sq Finset.univ v s
        rw [square] at bound
        apply le_of_sq_le_sq _ (by positivity)
        nlinarith [sq_nonneg norm]
      have expansion : ∑ i, (v i - v i * (radius / norm)) * (s i - v i * (radius / norm)) =
          (1 - radius / norm) * (∑ i, v i * s i - radius / norm * ∑ i, v i ^ 2) := by
        rw [Finset.mul_sum, ← Finset.sum_sub_distrib, Finset.mul_sum]
        apply Finset.sum_congr rfl
        intro i _
        ring
      have ratio : radius / norm ≤ 1 := (div_le_one positive).2 outside.le
      have ray : radius / norm * ∑ i, v i ^ 2 = norm * radius := by
        rw [square]
        field_simp
      rw [expansion, ray]
      exact mul_nonpos_of_nonneg_of_nonpos (by linarith) (by linarith)

/-! ### Models that project -/

/-- The projections of the model are nearest points of `S`. -/
def Model.ProjectsOnto (model : Model ℝ) (store : Store ℝ)
    (S : Set (Fin model.header.ncon → ℝ)) : Prop :=
  ∀ v, ∃ z, IsNearest S v z ∧
    (model.oracle.project (.vector (List.ofFn v)) none).outcome store = .ok (List.ofFn z)

/-- The projections of the model are the values of `P`. -/
def Model.ProjectsAs (model : Model ℝ) (store : Store ℝ)
    (P : (Fin model.header.ncon → ℝ) → Fin model.header.ncon → ℝ) : Prop :=
  ∀ v, (model.oracle.project (.vector (List.ofFn v)) none).outcome store = .ok (List.ofFn (P v))

/-- Nearest points that are returned are the values of a map. -/
theorem Model.ProjectsOnto.exists_map {model : Model ℝ} {store : Store ℝ}
    {S : Set (Fin model.header.ncon → ℝ)} (projects : model.ProjectsOnto store S) :
    ∃ P, model.ProjectsAs store P ∧ ∀ v, IsNearest S v (P v) := by
  choose P nearest returned using projects
  exact ⟨P, returned, nearest⟩

theorem ConstraintSet.ball_ofFn (radius : ℝ) (v : Fin n → ℝ) :
    (if Vec.norm (List.ofFn v) ≤ radius then List.ofFn v
      else Vec.scale (radius / Vec.norm (List.ofFn v)) (List.ofFn v)) =
      List.ofFn fun i => if √(∑ j, v j ^ 2) ≤ radius then v i else v i * (radius / √(∑ j, v j ^ 2)) := by
  rw [Vec.norm_ofFn, Vec.scale_ofFn]
  by_cases inside : √(∑ j, v j ^ 2) ≤ radius
  · simp only [if_pos inside]
  · simp only [if_neg inside]

/-- A model that was tailored to a ball projects onto it. -/
theorem Session.Sound.projectsOnto_centeredBall {session : Session ℝ} (sound : session.Sound)
    {node : Tailored ℝ} {base : Model ℝ} (member : .tailored node base ∈ session.models)
    (constrained : 0 < node.header.ncon) {radius : ℝ} (nonneg : 0 ≤ radius)
    (set : node.constraintSet = some (.ball radius)) :
    (Model.tailored node base).ProjectsOnto session.store (centeredBall _ radius) := by
  intro v
  refine ⟨_, isNearest_centeredBall nonneg v, ?_⟩
  have length : (List.ofFn v).length = (Model.tailored node base).constraintMeaning.ncon :=
    List.length_ofFn
  have asked : 0 < (Model.tailored node base).constraintMeaning.ncon := constrained
  rw [sound.outcome_project member, ConstraintMeaning.projectAt_vector length, if_pos asked]
  simp only [Model.constraintMeaning, Tailored.constraintMeaning, Tailored.projectMeaning, set,
    ConstraintSet.ball]
  rw [← ConstraintSet.ball_ofFn]

end CompositeModels
