/-
Module: CompositeModels.Vec
Purpose: Entrywise arithmetic, sums and norms of vectors held as lists. Sums run in index order.
Main exports: Vec.add, Vec.sub, Vec.total, Vec.dot, Vec.norm, Vec.maxAbs
-/
import CompositeModels.Scalar

namespace CompositeModels.Vec

variable {α : Type} [Scalar α]

/-- The vector of `n` zeros. -/
def zeros (n : Nat) : List α := List.replicate n 0

/-- The vector of `n` ones. -/
def ones (n : Nat) : List α := List.replicate n 1

/-- A vector of zeros as long as `v`. -/
def zeroed (v : List α) : List α := v.map fun _ => 0

/-- Entrywise sum. -/
def add (u v : List α) : List α := List.zipWith (· + ·) u v

/-- Entrywise difference. -/
def sub (u v : List α) : List α := List.zipWith (· - ·) u v

/-- Entrywise product. -/
def mul (u v : List α) : List α := List.zipWith (· * ·) u v

/-- Entrywise quotient. -/
def div (u v : List α) : List α := List.zipWith (· / ·) u v

/-- Entrywise negation. -/
def neg (v : List α) : List α := v.map (-·)

/-- Each entry times `c`. -/
def scale (c : α) (v : List α) : List α := v.map (· * c)

/-- Each entry divided by `c`. -/
def divide (v : List α) (c : α) : List α := v.map (· / c)

/-- Entrywise absolute value. -/
def abs (v : List α) : List α := v.map Scalar.abs

/-- The sum of the entries, from the first to the last. -/
def total (v : List α) : α := v.foldl (· + ·) 0

/-- The inner product. -/
def dot (u v : List α) : α := total (mul u v)

/-- The square root of the sum of squares. -/
def norm (v : List α) : α := Scalar.sqrt (dot v v)

/-- The largest absolute value, zero for an empty vector. An undefined entry makes it undefined. -/
def maxAbs (v : List α) : α := (abs v).foldl Scalar.largerOf 0

/-- The largest of `first` and the entries. -/
def largest (first : α) (v : List α) : α := v.foldl Scalar.largerOf first

/-- The smallest of `first` and the entries. -/
def smallest (first : α) (v : List α) : α := v.foldl Scalar.smallerOf first

/-- Every entry is above zero. An undefined entry is not. -/
def allPositive (v : List α) : Bool := v.all fun a => decide (0 < a)

/-- No entry is below zero, and none is undefined. -/
def allNonnegative (v : List α) : Bool := v.all fun a => decide (0 ≤ a)

@[simp] theorem length_zeros (n : Nat) : (zeros n : List α).length = n := by simp [zeros]

@[simp] theorem length_ones (n : Nat) : (ones n : List α).length = n := by simp [ones]

@[simp] theorem length_zeroed (v : List α) : (zeroed v).length = v.length := by simp [zeroed]

theorem zeroed_eq_zeros (v : List α) : zeroed v = (zeros v.length : List α) :=
  List.map_const'

@[simp] theorem length_add (u v : List α) : (add u v).length = min u.length v.length := by
  simp [add]

@[simp] theorem length_sub (u v : List α) : (sub u v).length = min u.length v.length := by
  simp [sub]

@[simp] theorem length_mul (u v : List α) : (mul u v).length = min u.length v.length := by
  simp [mul]

@[simp] theorem length_div (u v : List α) : (div u v).length = min u.length v.length := by
  simp [div]

@[simp] theorem length_neg (v : List α) : (neg v).length = v.length := by simp [neg]

@[simp] theorem length_scale (c : α) (v : List α) : (scale c v).length = v.length := by
  simp [scale]

@[simp] theorem length_divide (v : List α) (c : α) : (divide v c).length = v.length := by
  simp [divide]

end CompositeModels.Vec
