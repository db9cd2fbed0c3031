/-
Module: CompositeModels.Proofs.Exact
Purpose: The exact meaning of evaluations, over the real numbers. Every operation is the one of analysis,
  and scalars that are equal are the same. A vector of length `n` is the list of the values of a function
  on `Fin n`, so that statements of analysis apply to it entry by entry.
Main exports: instElementaryReal, Scalar.sign_mul_self_real, Vec.exists_eq_ofFn, Vec.total_ofFn,
  Vec.dot_ofFn, Vec.norm_sq, Vec.norm_sub_eq_zero_iff, Vec.dot_append
-/
import Mathlib.Algebra.BigOperators.Fin
import Mathlib.Analysis.Complex.Trigonometric
import Mathlib.Analysis.SpecialFunctions.Log.Basic
import Mathlib.Analysis.SpecialFunctions.Sqrt
import CompositeModels.Vec

namespace CompositeModels

/-- Exact scalars. -/
noncomputable instance instElementaryReal : Elementary ℝ where
  zero := 0
  one := 1
  add := (· + ·)
  sub := (· - ·)
  mul := (· * ·)
  div := (· / ·)
  neg := (-·)
  lt := (· < ·)
  le := (· ≤ ·)
  beq a b := decide (a = b)
  sqrt := Real.sqrt
  abs a := |a|
  smallestNormal := (1 + 1) ^ (-1022 : ℤ)
  decideLt := fun _ _ => Classical.propDecidable _
  decideLe := fun _ _ => Classical.propDecidable _
  sin := Real.sin
  cos := Real.cos
  exp := Real.exp
  log := Real.log
  tanh := Real.tanh
  ofInteger := fun n => n

instance Scalar.lawfulBEq_real : @LawfulBEq ℝ Scalar.toBEq where
  eq_of_beq := by
    intro a b same
    exact of_decide_eq_true same
  rfl := by
    intro a
    exact decide_eq_true rfl

theorem Scalar.half_real : (Scalar.half : ℝ) = 1 / 2 := by
  show (1 : ℝ) / (1 + 1) = 1 / 2
  norm_num

theorem Scalar.smallestNormal_pos : 0 < (Scalar.smallestNormal : ℝ) := by
  show (0 : ℝ) < (1 + 1) ^ (-1022 : ℤ)
  positivity

/-- Every exact scalar carries a number. -/
theorem Scalar.isUndefined_real (a : ℝ) : Scalar.isUndefined a = false := by
  simp [Scalar.isUndefined]

theorem Scalar.largerOf_real (a b : ℝ) : Scalar.largerOf a b = max a b := by
  rw [Scalar.largerOf, isUndefined_real]
  split
  · contradiction
  · split
    · next above => exact (max_eq_left (le_of_lt above)).symm
    · next below => exact (max_eq_right (le_of_not_gt below)).symm

theorem Scalar.smallerOf_real (a b : ℝ) : Scalar.smallerOf a b = min a b := by
  rw [Scalar.smallerOf, isUndefined_real]
  split
  · contradiction
  · split
    · next below => exact (min_eq_left (le_of_lt below)).symm
    · next above => exact (min_eq_right (le_of_not_gt above)).symm

section

variable {a : ℝ}

theorem Scalar.sign_of_pos_real (positive : 0 < a) : Scalar.sign a = 1 := if_pos positive

theorem Scalar.sign_of_neg_real (negative : a < 0) : Scalar.sign a = -1 := by
  rw [sign, if_neg negative.not_gt, if_pos negative]

theorem Scalar.sign_zero_real : Scalar.sign (0 : ℝ) = 0 := by
  rw [sign, isUndefined_real, if_neg (lt_irrefl _), if_neg (lt_irrefl _), if_neg Bool.false_ne_true]

/-- The sign of a number is a slope of the absolute value. -/
theorem Scalar.sign_mul_self_real (a : ℝ) : Scalar.sign a * a = |a| := by
  rcases lt_trichotomy a 0 with negative | rfl | positive
  · rw [sign_of_neg_real negative, neg_one_mul, abs_of_neg negative]
  · rw [mul_zero, abs_zero]
  · rw [sign_of_pos_real positive, one_mul, abs_of_pos positive]

theorem Scalar.sign_mul_abs_real (a : ℝ) : Scalar.sign a * |a| = a := by
  rcases lt_trichotomy a 0 with negative | rfl | positive
  · rw [sign_of_neg_real negative, abs_of_neg negative, neg_one_mul, neg_neg]
  · rw [abs_zero, mul_zero]
  · rw [sign_of_pos_real positive, one_mul, abs_of_pos positive]

theorem Scalar.sign_mul_le_real (a b : ℝ) : Scalar.sign a * b ≤ |b| := by
  rcases lt_trichotomy a 0 with negative | rfl | positive
  · rw [sign_of_neg_real negative, neg_one_mul]
    exact neg_le_abs b
  · rw [sign_zero_real, zero_mul]
    exact abs_nonneg b
  · rw [sign_of_pos_real positive, one_mul]
    exact le_abs_self b

end

/-! ### Vectors -/

namespace Vec

theorem exists_eq_ofFn {α : Type} {v : List α} {n : ℕ} (length : v.length = n) :
    ∃ u : Fin n → α, v = List.ofFn u := by
  subst length
  exact ⟨v.get, (List.ofFn_get v).symm⟩

theorem zipWith_ofFn {α β γ : Type} {n : ℕ} (f : α → β → γ) (u : Fin n → α) (v : Fin n → β) :
    List.zipWith f (List.ofFn u) (List.ofFn v) = List.ofFn fun i => f (u i) (v i) := by
  apply List.ext_getElem
  · simp
  · intro k _ _
    simp

variable {n : ℕ} (u v : Fin n → ℝ) (c : ℝ)

@[simp] theorem add_ofFn : add (List.ofFn u) (List.ofFn v) = List.ofFn fun i => u i + v i :=
  zipWith_ofFn _ u v

@[simp] theorem sub_ofFn : sub (List.ofFn u) (List.ofFn v) = List.ofFn fun i => u i - v i :=
  zipWith_ofFn _ u v

@[simp] theorem mul_ofFn : mul (List.ofFn u) (List.ofFn v) = List.ofFn fun i => u i * v i :=
  zipWith_ofFn _ u v

@[simp] theorem div_ofFn : div (List.ofFn u) (List.ofFn v) = List.ofFn fun i => u i / v i :=
  zipWith_ofFn _ u v

@[simp] theorem neg_ofFn : neg (List.ofFn u) = List.ofFn fun i => -u i :=
  List.map_ofFn

@[simp] theorem scale_ofFn : scale c (List.ofFn u) = List.ofFn fun i => u i * c :=
  List.map_ofFn

@[simp] theorem divide_ofFn : divide (List.ofFn u) c = List.ofFn fun i => u i / c :=
  List.map_ofFn

@[simp] theorem abs_ofFn : abs (List.ofFn u) = List.ofFn fun i => |u i| :=
  List.map_ofFn

@[simp] theorem zeroed_ofFn : zeroed (List.ofFn u) = List.ofFn fun _ : Fin n => 0 :=
  List.map_ofFn

theorem zeros_eq_ofFn (n : ℕ) : (zeros n : List ℝ) = List.ofFn fun _ : Fin n => 0 :=
  (List.ofFn_const n 0).symm

/-- In exact arithmetic the order of a sum does not matter. -/
theorem total_eq_sum (v : List ℝ) : total v = v.sum := by
  rw [List.sum_eq_foldl]
  rfl

@[simp] theorem total_ofFn : total (List.ofFn u) = ∑ i, u i := by
  rw [total_eq_sum, List.sum_ofFn]

@[simp] theorem dot_ofFn : dot (List.ofFn u) (List.ofFn v) = ∑ i, u i * v i := by
  rw [dot, mul_ofFn, total_ofFn]

theorem norm_sq (v : List ℝ) : norm v ^ 2 = dot v v := by
  generalize length : v.length = n
  obtain ⟨u, rfl⟩ := exists_eq_ofFn length
  refine Real.sq_sqrt ?_
  rw [dot_ofFn]
  exact Finset.sum_nonneg fun i _ => mul_self_nonneg (u i)

theorem norm_ofFn : norm (List.ofFn u) = √(∑ i, u i ^ 2) := by
  rw [norm, dot_ofFn]
  simp only [sq]
  rfl

theorem norm_ofFn_sq : norm (List.ofFn u) ^ 2 = ∑ i, u i ^ 2 := by
  rw [norm_sq, dot_ofFn]
  simp only [sq]

theorem sum_mul_le_norm_mul_norm :
    ∑ i, u i * v i ≤ norm (List.ofFn u) * norm (List.ofFn v) := by
  rw [norm_ofFn, norm_ofFn]
  exact Real.sum_mul_le_sqrt_mul_sqrt Finset.univ u v

theorem norm_nonneg (v : List ℝ) : 0 ≤ norm v := Real.sqrt_nonneg _

theorem norm_le_of_sq_le {u v : List ℝ} (squares : norm u ^ 2 ≤ norm v ^ 2) : norm u ≤ norm v :=
  (pow_le_pow_iff_left₀ (norm_nonneg u) (norm_nonneg v) two_ne_zero).1 squares

theorem norm_add_le : norm (List.ofFn fun i => u i + v i) ≤
    norm (List.ofFn u) + norm (List.ofFn v) := by
  have expanded : ∑ i, (u i + v i) ^ 2 = ∑ i, u i ^ 2 + 2 * ∑ i, u i * v i + ∑ i, v i ^ 2 := by
    rw [Finset.mul_sum, ← Finset.sum_add_distrib, ← Finset.sum_add_distrib]
    exact Finset.sum_congr rfl fun i _ => by ring
  have inner := sum_mul_le_norm_mul_norm u v
  apply abs_le_of_sq_le_sq' _ (add_nonneg (norm_nonneg _) (norm_nonneg _)) |>.2
  rw [norm_ofFn_sq, expanded, ← norm_ofFn_sq, ← norm_ofFn_sq]
  linarith

theorem norm_scale_ofFn : norm (List.ofFn fun i => c * u i) = |c| * norm (List.ofFn u) := by
  rw [norm_ofFn, norm_ofFn, ← Real.sqrt_sq_eq_abs, ← Real.sqrt_mul (sq_nonneg c), Finset.mul_sum]
  simp only [mul_pow]

theorem norm_eq_zero_iff {v : List ℝ} {n : ℕ} (length : v.length = n) : norm v = 0 ↔ v = zeros n := by
  obtain ⟨u, rfl⟩ := exists_eq_ofFn length
  rw [← sq_eq_zero_iff, norm_sq, dot_ofFn, zeros_eq_ofFn, List.ofFn_inj,
    Finset.sum_eq_zero_iff_of_nonneg fun i _ => mul_self_nonneg (u i), funext_iff]
  simp

/-- The inner product of vectors that consist of two blocks each. -/
theorem dot_append {a b c d : List ℝ} (length : a.length = c.length) :
    dot (a ++ b) (c ++ d) = dot a c + dot b d := by
  rw [dot, mul, List.zipWith_append length, total_eq_sum, List.sum_append, ← total_eq_sum,
    ← total_eq_sum]
  rfl

theorem dot_cons (a b : ℝ) (u v : List ℝ) : dot (a :: u) (b :: v) = a * b + dot u v := by
  rw [dot, mul, List.zipWith_cons_cons, total_eq_sum, List.sum_cons, ← total_eq_sum]
  rfl

/-- The squared distance of vectors is that of their first entries and that of the others. -/
theorem norm_sub_cons_sq (a b : ℝ) (u v : List ℝ) :
    norm (sub (a :: u) (b :: v)) ^ 2 = (a - b) ^ 2 + norm (sub u v) ^ 2 := by
  rw [norm_sq, norm_sq, sq]
  exact dot_cons _ _ _ _

/-- The squared distance of vectors with two blocks is that of both blocks. -/
theorem norm_sub_append_sq {a b c d : List ℝ} (length : a.length = c.length) :
    norm (sub (a ++ b) (c ++ d)) ^ 2 = norm (sub a c) ^ 2 + norm (sub b d) ^ 2 := by
  rw [norm_sq, norm_sq, norm_sq, sub, List.zipWith_append length]
  exact dot_append rfl

theorem dot_sub_left {p t w : List ℝ} {n : ℕ} (hp : p.length = n) (ht : t.length = n)
    (hw : w.length = n) : dot (sub p t) w = dot p w - dot t w := by
  obtain ⟨p, rfl⟩ := exists_eq_ofFn hp
  obtain ⟨t, rfl⟩ := exists_eq_ofFn ht
  obtain ⟨w, rfl⟩ := exists_eq_ofFn hw
  simp only [sub_ofFn, dot_ofFn, sub_mul, Finset.sum_sub_distrib]

theorem dot_neg_right {t w : List ℝ} {n : ℕ} (ht : t.length = n) (hw : w.length = n) :
    dot t (neg w) = -dot t w := by
  obtain ⟨t, rfl⟩ := exists_eq_ofFn ht
  obtain ⟨w, rfl⟩ := exists_eq_ofFn hw
  simp only [neg_ofFn, dot_ofFn, mul_neg, Finset.sum_neg_distrib]

theorem dot_zeros {v : List ℝ} {n : ℕ} (hv : v.length = n) : dot v (zeros n) = 0 := by
  obtain ⟨v, rfl⟩ := exists_eq_ofFn hv
  simp only [zeros_eq_ofFn, dot_ofFn, mul_zero, Finset.sum_const_zero]

theorem add_zeros {v : List ℝ} {n : ℕ} (hv : v.length = n) : add v (zeros n) = v := by
  obtain ⟨v, rfl⟩ := exists_eq_ofFn hv
  simp only [zeros_eq_ofFn, add_ofFn, add_zero]

theorem sub_eq_zeros_iff {u v : List ℝ} {n : ℕ} (hu : u.length = n) (hv : v.length = n) :
    sub u v = zeros n ↔ u = v := by
  obtain ⟨u, rfl⟩ := exists_eq_ofFn hu
  obtain ⟨v, rfl⟩ := exists_eq_ofFn hv
  rw [sub_ofFn, zeros_eq_ofFn, List.ofFn_inj, List.ofFn_inj, funext_iff, funext_iff]
  exact forall_congr' fun i => sub_eq_zero

theorem norm_sub_eq_zero_iff {u v : List ℝ} {n : ℕ} (hu : u.length = n) (hv : v.length = n) :
    norm (sub u v) = 0 ↔ u = v := by
  have length : (sub u v).length = n := by simp [hu, hv]
  rw [norm_eq_zero_iff length, sub_eq_zeros_iff hu hv]

theorem norm_sub_self (v : List ℝ) : norm (sub v v) = 0 :=
  (norm_sub_eq_zero_iff rfl rfl).2 rfl

theorem norm_zeros_sub {v : List ℝ} {n : ℕ} (length : v.length = n) :
    norm (sub (zeros n) v) = norm v := by
  obtain ⟨u, rfl⟩ := exists_eq_ofFn length
  have squares : dot (sub (zeros n) (List.ofFn u)) (sub (zeros n) (List.ofFn u)) =
      dot (List.ofFn u) (List.ofFn u) := by
    rw [zeros_eq_ofFn, sub_ofFn, dot_ofFn, dot_ofFn]
    simp
  rw [norm, squares]
  rfl

theorem mul_replicate {v : List ℝ} {n : ℕ} (hv : v.length = n) (a : ℝ) :
    mul (List.replicate n a) v = scale a v := by
  obtain ⟨v, rfl⟩ := exists_eq_ofFn hv
  rw [← List.ofFn_const, mul_ofFn, scale_ofFn]
  simp only [mul_comm]

/-- A shift by `a * y` is taken back by the division by `a` exactly if the base point is the same. -/
theorem div_replicate_eq_iff {s y z : List ℝ} {n : ℕ} (hs : s.length = n) (hy : y.length = n)
    (hz : z.length = n) {a : ℝ} (nonzero : a ≠ 0) :
    div (sub (add s (scale a y)) z) (List.replicate n a) = y ↔ z = s := by
  obtain ⟨s, rfl⟩ := exists_eq_ofFn hs
  obtain ⟨y, rfl⟩ := exists_eq_ofFn hy
  obtain ⟨z, rfl⟩ := exists_eq_ofFn hz
  rw [scale_ofFn, add_ofFn, sub_ofFn, ← List.ofFn_const, div_ofFn, List.ofFn_inj, List.ofFn_inj,
    funext_iff, funext_iff]
  apply forall_congr'
  intro i
  rw [div_eq_iff nonzero]
  constructor
  · intro shifted
    linarith
  · intro same
    linarith

/-- A step from `[x; s]` along the slope of a slack reformulation, block by block. -/
theorem sub_scale_append {x g p s y : List ℝ} {m n : ℕ} (hx : x.length = m) (hg : g.length = m)
    (hp : p.length = m) (hs : s.length = n) (hy : y.length = n) (a : ℝ) :
    sub (x ++ s) (scale a (add (g ++ zeroed s) (p ++ neg y))) =
      sub x (scale a (add g p)) ++ add s (scale a y) := by
  have slack : sub s (scale a (add (zeroed s) (neg y))) = add s (scale a y) := by
    obtain ⟨s, rfl⟩ := exists_eq_ofFn hs
    obtain ⟨y, rfl⟩ := exists_eq_ofFn hy
    rw [zeroed_ofFn, neg_ofFn, add_ofFn, scale_ofFn, sub_ofFn, scale_ofFn, add_ofFn]
    congr 1
    funext i
    ring
  rw [← slack]
  unfold sub scale add
  rw [List.zipWith_append (hg.trans hp.symm), List.map_append, List.zipWith_append]
  rw [hx, List.length_map, List.length_zipWith, hg, hp, Nat.min_self]

end Vec

end CompositeModels
