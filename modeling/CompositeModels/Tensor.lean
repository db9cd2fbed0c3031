/-
Module: CompositeModels.Tensor
Purpose: Arrays of any rank, as callers may hand them in. Evaluations accept vectors only, so a shape
  is what a length check looks at. Also the product of an array and a vector along the last axis.
Main exports: Shape, Shape.size, Shape.IsVectorOf, Tensor, Tensor.vector, Tensor.mulVector
-/
import CompositeModels.Vec

namespace CompositeModels

/-- The extents of an array, outermost axis first. A single number has no axes. -/
abbrev Shape := List Nat

namespace Shape

/-- The number of entries of an array of this shape. -/
def size (shape : Shape) : Nat := shape.foldr (· * ·) 1

/-- One axis with `n` entries. The extent is an integer because a declared size may be negative, in
which case no array fits it. -/
def IsVectorOf (shape : Shape) (n : Int) : Prop := shape.map Int.ofNat = [n]

instance (shape : Shape) (n : Int) : Decidable (shape.IsVectorOf n) :=
  inferInstanceAs (Decidable (_ = _))

theorem isVectorOf_natCast {shape : Shape} {n : Nat} : shape.IsVectorOf (n : Int) ↔ shape = [n] := by
  unfold IsVectorOf
  constructor
  · intro h
    match shape, h with
    | [m], h => simpa using Int.ofNat.inj (List.head_eq_of_cons_eq h)
    | [], h => simp at h
    | _ :: _ :: _, h => simp at h
  · rintro rfl
    rfl

end Shape

/-- An array in row-major order. -/
structure Tensor (α : Type) where
  shape : Shape
  entries : List α
  length_entries : entries.length = shape.size

namespace Tensor

variable {α β : Type}

/-- A vector as an array with one axis. -/
def vector (v : List α) : Tensor α where
  shape := [v.length]
  entries := v
  length_entries := by simp [Shape.size]

/-- A single number as an array without axes. -/
def single (a : α) : Tensor α where
  shape := []
  entries := [a]
  length_entries := rfl

/-- Apply a function to each entry. -/
def map (f : α → β) (t : Tensor α) : Tensor β where
  shape := t.shape
  entries := t.entries.map f
  length_entries := by simp [t.length_entries]

/-- An array of the given shape whose entries are computed from their row-major positions. -/
def generate (shape : Shape) (entry : Nat → α) : Tensor α where
  shape := shape
  entries := (List.range shape.size).map entry
  length_entries := by simp

/-- Stack arrays of one shape along a new first axis. Gives nothing for rows of different shapes. -/
def stack? : List (Tensor α) → Option (Tensor α)
  | [] => some (vector [])
  | first :: rest =>
      let rows := first :: rest
      let shape := rows.length :: first.shape
      let entries := rows.flatMap entries
      if h : entries.length = Shape.size shape ∧ rest.all (·.shape == first.shape) then
        some ⟨shape, entries, h.1⟩
      else none

@[simp] theorem shape_vector (v : List α) : (vector v).shape = [v.length] := rfl

@[simp] theorem entries_vector (v : List α) : (vector v).entries = v := rfl

/-- An array that passes the length check is the vector of its entries. -/
theorem length_of_isVectorOf {t : Tensor α} {n : Nat} (h : t.shape.IsVectorOf (n : Int)) :
    t.entries.length = n := by
  rw [t.length_entries, Shape.isVectorOf_natCast.1 h]
  simp [Shape.size]

variable [Scalar α]

/-- The entrywise product of an array and a vector laid along the last axis. An extent of one is
stretched to the other operand's, any other pair of different extents does not match. -/
def mulVector? (t : Tensor α) (v : List α) : Option (Tensor α) :=
  match t.shape.getLast? with
  | none => some (vector (v.map (t.entries.headD 0 * ·)))
  | some columns =>
      let count := v.length
      let extent := if columns = 1 then count else columns
      if columns = count ∨ columns = 1 ∨ count = 1 then
        some <| generate (t.shape.dropLast ++ [extent]) fun k =>
          t.entries.getD (if columns = extent then k else k / extent) 0 *
            v.getD (if count = extent then k % extent else 0) 0
      else none

end Tensor

end CompositeModels
