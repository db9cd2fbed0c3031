/-
Module: CompositeModels.Proofs.Clamp
Purpose: Clamping a number onto an interval in exact arithmetic, for any pattern of finite and missing
  bounds. If the bounds are in order, the clamped number is the nearest one of the interval, since what
  is left of the number points away from the interval.
Main exports: Interval.Contains, Interval.Ordered, Interval.contains_clamp, Interval.clamp_obtuse,
  Interval.upper_eq_of_clamp_lt, Interval.lower_eq_of_lt_clamp, Interval.sq_clamp_sub_le,
  Interval.sq_clamp_sub_clamp_le, Box.Contains, Box.Ordered, Box.contains_clamp,
  Box.norm_clamp_sub_sq_le, Box.norm_clamp_sub_clamp_sq_le
-/
import CompositeModels.Proofs.Exact
import CompositeModels.Box

namespace CompositeModels

namespace Interval

variable {interval : Interval ℝ} {a v : ℝ}

/-- The numbers that lie between the bounds that are there. -/
structure Contains (interval : Interval ℝ) (a : ℝ) : Prop where
  lower : ∀ l, interval.lower = some l → l ≤ a
  upper : ∀ u, interval.upper = some u → a ≤ u

/-- If both bounds are there, the lower one is not above the upper one. -/
def Ordered (interval : Interval ℝ) : Prop :=
  ∀ l u, interval.lower = some l → interval.upper = some u → l ≤ u

theorem clamp_none_none : clamp ⟨none, none⟩ v = v := rfl

theorem clamp_some_none (l : ℝ) : clamp ⟨some l, none⟩ v = max v l := Scalar.largerOf_real v l

theorem clamp_none_some (u : ℝ) : clamp ⟨none, some u⟩ v = min v u := Scalar.smallerOf_real v u

theorem clamp_some_some (l u : ℝ) : clamp ⟨some l, some u⟩ v = min (max v l) u := by
  rw [← Scalar.largerOf_real, ← Scalar.smallerOf_real]
  rfl

theorem contains_clamp (ordered : interval.Ordered) (v : ℝ) : interval.Contains (interval.clamp v) := by
  rcases interval with ⟨_ | l, _ | u⟩
  · constructor <;> intro _ same <;> cases same
  · rw [clamp_none_some]
    constructor <;> intro _ same <;> cases same
    exact min_le_right _ _
  · rw [clamp_some_none]
    constructor <;> intro _ same <;> cases same
    exact le_max_right _ _
  · have between : l ≤ u := ordered l u rfl rfl
    rw [clamp_some_some]
    constructor <;> intro _ same <;> cases same
    · exact le_min (le_max_right _ _) between
    · exact min_le_right _ _

/-- A number that is moved ends at the bound that it lies beyond, so nothing of the interval lies on the
side that it comes from. -/
theorem clamp_obtuse (contains : interval.Contains a) (v : ℝ) :
    (v - interval.clamp v) * (a - interval.clamp v) ≤ 0 := by
  rcases interval with ⟨_ | l, _ | u⟩
  · simp [clamp_none_none]
  · have above : a ≤ u := contains.upper u rfl
    rw [clamp_none_some]
    rcases le_total v u with inside | outside
    · rw [min_eq_left inside]
      simp
    · rw [min_eq_right outside]
      exact mul_nonpos_of_nonneg_of_nonpos (by linarith) (by linarith)
  · have below : l ≤ a := contains.lower l rfl
    rw [clamp_some_none]
    rcases le_total l v with inside | outside
    · rw [max_eq_left inside]
      simp
    · rw [max_eq_right outside]
      exact mul_nonpos_of_nonpos_of_nonneg (by linarith) (by linarith)
  · have below : l ≤ a := contains.lower l rfl
    have above : a ≤ u := contains.upper u rfl
    rw [clamp_some_some]
    rcases le_total l v with insideLower | outsideLower
    · rw [max_eq_left insideLower]
      rcases le_total v u with insideUpper | outsideUpper
      · rw [min_eq_left insideUpper]
        simp
      · rw [min_eq_right outsideUpper]
        exact mul_nonpos_of_nonneg_of_nonpos (by linarith) (by linarith)
    · rw [max_eq_right outsideLower, min_eq_left (below.trans above)]
      exact mul_nonpos_of_nonpos_of_nonneg (by linarith) (by linarith)

/-- A number that is lowered ends at the upper bound. -/
theorem upper_eq_of_clamp_lt (lowered : interval.clamp v < v) :
    interval.upper = some (interval.clamp v) := by
  rcases interval with ⟨_ | l, _ | u⟩
  · exact absurd lowered (lt_irrefl v)
  · rw [clamp_none_some] at lowered ⊢
    have above : u < v := (min_lt_iff.1 lowered).resolve_left (lt_irrefl v)
    rw [min_eq_right above.le]
  · rw [clamp_some_none] at lowered
    exact absurd lowered (not_lt.2 (le_max_left v l))
  · rw [clamp_some_some] at lowered ⊢
    have above : u < v := (min_lt_iff.1 lowered).resolve_left (not_lt.2 (le_max_left v l))
    rw [min_eq_right (above.le.trans (le_max_left v l))]

/-- A number that is raised ends at the lower bound. -/
theorem lower_eq_of_lt_clamp (ordered : interval.Ordered) (raised : v < interval.clamp v) :
    interval.lower = some (interval.clamp v) := by
  rcases interval with ⟨_ | l, _ | u⟩
  · exact absurd raised (lt_irrefl v)
  · rw [clamp_none_some] at raised
    exact absurd raised (not_lt.2 (min_le_left v u))
  · rw [clamp_some_none] at raised ⊢
    have below : v < l := (lt_max_iff.1 raised).resolve_left (lt_irrefl v)
    rw [max_eq_right below.le]
  · have between : l ≤ u := ordered l u rfl rfl
    rw [clamp_some_some] at raised ⊢
    have below : v < l := (lt_max_iff.1 (lt_min_iff.1 raised).1).resolve_left (lt_irrefl v)
    rw [max_eq_right below.le, min_eq_left between]

/-- An interval with one number clamps everything to it. -/
theorem clamp_single (b v : ℝ) : clamp ⟨some b, some b⟩ v = b := by
  rw [clamp_some_some]
  exact min_eq_right (le_max_right v b)

/-- No number of the interval is nearer than the clamped one. -/
theorem sq_clamp_sub_le (contains : interval.Contains a) (v : ℝ) :
    (interval.clamp v - v) ^ 2 ≤ (a - v) ^ 2 := by
  have obtuse := clamp_obtuse contains v
  nlinarith [sq_nonneg (a - interval.clamp v)]

/-- Clamping does not move two numbers apart. -/
theorem sq_clamp_sub_clamp_le (ordered : interval.Ordered) (v w : ℝ) :
    (interval.clamp v - interval.clamp w) ^ 2 ≤ (v - w) ^ 2 := by
  -- Each of the two is obtuse towards the other, and the sum of both bounds the squared distance.
  have first := clamp_obtuse (contains_clamp ordered w) v
  have second := clamp_obtuse (contains_clamp ordered v) w
  nlinarith [sq_nonneg (v - w - (interval.clamp v - interval.clamp w))]

end Interval

namespace Box

/-- The vectors with each entry in its interval. -/
def Contains (box : Box ℝ) (z : List ℝ) : Prop := List.Forall₂ Interval.Contains box z

/-- All bounds are in order. -/
def Ordered (box : Box ℝ) : Prop := ∀ interval ∈ box, interval.Ordered

theorem contains_clamp {box : Box ℝ} (ordered : box.Ordered) {v : List ℝ}
    (length : box.length = v.length) : box.Contains (box.clamp v) := by
  induction box generalizing v with
  | nil => exact .nil
  | cons interval rest ih =>
      cases v with
      | nil => contradiction
      | cons a others =>
          have first : interval.Contains (interval.clamp a) :=
            Interval.contains_clamp (ordered interval (.head _)) a
          have remaining : Contains rest (clamp rest others) :=
            ih (fun other member => ordered other (.tail _ member)) (Nat.succ.inj length)
          exact .cons first remaining

theorem length_of_contains {box : Box ℝ} {z : List ℝ} (contains : box.Contains z) :
    z.length = box.length :=
  (List.Forall₂.length_eq contains).symm

/-- No vector of a box is nearer than the clamped one. -/
theorem norm_clamp_sub_sq_le {box : Box ℝ} {z : List ℝ} (contains : box.Contains z) :
    ∀ {v : List ℝ}, box.length = v.length →
      Vec.norm (Vec.sub (box.clamp v) v) ^ 2 ≤ Vec.norm (Vec.sub z v) ^ 2 := by
  induction contains with
  | nil =>
      intro v length
      rfl
  | cons first rest ih =>
      intro v length
      cases v with
      | nil => contradiction
      | cons a others =>
          rw [clamp, List.zipWith_cons_cons, Vec.norm_sub_cons_sq, Vec.norm_sub_cons_sq]
          have nearest := Interval.sq_clamp_sub_le first a
          have remaining := ih (Nat.succ.inj length)
          rw [clamp] at remaining
          linarith

/-- Clamping does not move two vectors apart. -/
theorem norm_clamp_sub_clamp_sq_le {box : Box ℝ} (ordered : box.Ordered) :
    ∀ {v w : List ℝ}, box.length = v.length → box.length = w.length →
      Vec.norm (Vec.sub (box.clamp v) (box.clamp w)) ^ 2 ≤ Vec.norm (Vec.sub v w) ^ 2 := by
  induction box with
  | nil =>
      intro v w lengthV lengthW
      rw [List.eq_nil_of_length_eq_zero lengthV.symm, List.eq_nil_of_length_eq_zero lengthW.symm]
      rfl
  | cons interval rest ih =>
      intro v w lengthV lengthW
      cases v with
      | nil => contradiction
      | cons a others =>
          cases w with
          | nil => contradiction
          | cons b remaining =>
              have first := Interval.sq_clamp_sub_clamp_le (ordered interval (.head _)) a b
              have others := ih (fun other member => ordered other (.tail _ member))
                (Nat.succ.inj lengthV) (Nat.succ.inj lengthW)
              simp only [clamp, List.zipWith_cons_cons, Vec.norm_sub_cons_sq] at others ⊢
              linarith

end Box

end CompositeModels
