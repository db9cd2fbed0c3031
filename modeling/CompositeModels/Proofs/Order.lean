/-
Module: CompositeModels.Proofs.Order
Purpose: What evaluations can rely on when they compare scalars. Those that carry a number are ordered
  linearly, with infinities at the ends, and an undefined value is compared with nothing. Both hold of
  binary64 numbers and of exact ones.
Main exports: Scalar.LawfulOrder, Scalar.LawfulEquality, Scalar.lawfulOrder_float,
  Scalar.lawfulOrder_real, Scalar.lawfulEquality_float, Scalar.lawfulEquality_real,
  Scalar.le_largerOf, Scalar.smallerOf_le, Scalar.le_smallerOf
-/
import CompositeModels.Proofs.Clamp
import Mathlib.Data.Prod.Lex
import Mathlib.Order.Compare

namespace CompositeModels

namespace Scalar

/-- Scalars that carry a number are in linear order, up to equal ones that are told apart by other means.
An undefined value is neither above nor below anything. -/
class LawfulOrder (α : Type) [Scalar α] : Prop where
  lt_iff : ∀ {a b : α}, a < b ↔ a ≤ b ∧ ¬ b ≤ a
  le_trans : ∀ {a b c : α}, a ≤ b → b ≤ c → a ≤ c
  le_total : ∀ {a b : α}, isUndefined a = false → isUndefined b = false → a ≤ b ∨ b ≤ a
  defined_left : ∀ {a b : α}, a ≤ b → isUndefined a = false
  defined_right : ∀ {a b : α}, a ≤ b → isUndefined b = false
  defined_zero : isUndefined (0 : α) = false

section LawfulOrder

variable {α : Type} [Scalar α] [LawfulOrder α] {a b c : α}

theorem le_self (defined : isUndefined a = false) : a ≤ a :=
  (LawfulOrder.le_total defined defined).elim id id

/-- The larger of two values is one of them, and the second is not above it. -/
theorem le_largerOf (left : isUndefined a = false) (right : isUndefined b = false) :
    b ≤ largerOf a b := by
  rw [largerOf, left, if_neg Bool.false_ne_true]
  split
  · next below => exact (LawfulOrder.lt_iff.1 below).1
  · exact le_self right

/-- The second of two values is not below the smaller one. -/
theorem smallerOf_le (left : isUndefined a = false) (right : isUndefined b = false) :
    smallerOf a b ≤ b := by
  rw [smallerOf, left, if_neg Bool.false_ne_true]
  split
  · next below => exact (LawfulOrder.lt_iff.1 below).1
  · exact le_self right

/-- What is not above either of two values is not above the smaller one. -/
theorem le_smallerOf (left : c ≤ a) (right : c ≤ b) : c ≤ smallerOf a b := by
  rw [smallerOf, LawfulOrder.defined_right left, if_neg Bool.false_ne_true]
  split
  · exact left
  · exact right

end LawfulOrder

/-- Moreover, two scalars are equal if neither is above the other. So a scalar above zero is not equal to
it, and an undefined value is equal to nothing. -/
class LawfulEquality (α : Type) [Scalar α] : Prop extends LawfulOrder α where
  beq_iff : ∀ {a b : α}, (a == b) = true ↔ a ≤ b ∧ b ≤ a

section LawfulEquality

variable {α : Type} [Scalar α] [LawfulEquality α] {a b : α}

theorem beq_eq_false_of_lt (below : b < a) : (a == b) = false := by
  refine Bool.eq_false_of_not_eq_true fun equal => ?_
  exact (LawfulOrder.lt_iff.1 below).2 (LawfulEquality.beq_iff.1 equal).1

theorem beq_eq_false_of_undefined (undefined : isUndefined a = true) : (a == b) = false := by
  refine Bool.eq_false_of_not_eq_true fun equal => ?_
  have defined := LawfulOrder.defined_left (LawfulEquality.beq_iff.1 equal).1
  exact Bool.false_ne_true (defined.symm.trans undefined)

end LawfulEquality

end Scalar

/-! ### Binary64 numbers -/

namespace Binary64

open Float.Model (UnpackedFloat)

/-- The place of a number in the order: first its side of zero, then the exponent and the significand,
which count downwards on the negative side. Both zeros have the same place. -/
def place : UnpackedFloat → ℤ ×ₗ ℤ ×ₗ ℤ
  | .infinity .negative => toLex (-2, toLex (0, 0))
  | .finite .negative m e _ => toLex (-1, toLex (-e, -m))
  | .zero _ | .notANumber => toLex (0, toLex (0, 0))
  | .finite .positive m e _ => toLex (1, toLex (e, m))
  | .infinity .positive => toLex (2, toLex (0, 0))

theorem compare_natCast (m n : ℕ) : compare (m : ℤ) n = compare m n := by
  rw [← cmp_eq_compare, ← cmp_eq_compare]
  exact Nat.strictMono_cast.cmp_map_eq m n

theorem compare_neg (a b : ℤ) : compare (-a) (-b) = (compare a b).swap := by
  have reverses : StrictAnti fun a : ℤ => -a := fun _ _ below => neg_lt_neg below
  rw [← cmp_eq_compare, ← cmp_eq_compare, cmp_swap]
  exact reverses.cmp_map_eq a b

/-- Numbers compare like their places. -/
theorem compare_eq (a b : UnpackedFloat) :
    a.compare b = if a.isNaN || b.isNaN then none else some (compare (place a) (place b)) := by
  rcases a with (_ | _) | _ | (_ | _) | ⟨_ | _, m, e, _⟩ <;>
    rcases b with (_ | _) | _ | (_ | _) | ⟨_ | _, n, f, _⟩
  -- Unless both numbers are finite and on the same side, the sides decide.
  case finite.negative.finite.negative =>
    change some ((compare e f).then (compare m n)).swap =
      some ((compare (-e) (-f)).then (compare (-m : ℤ) (-n)))
    rw [compare_neg, compare_neg, compare_natCast, Ordering.swap_then]
  case finite.positive.finite.positive =>
    change some ((compare e f).then (compare m n)) = some ((compare e f).then (compare (m : ℤ) n))
    rw [compare_natCast]
  all_goals rfl

variable (a b : Float)

theorem isUndefined_eq : Scalar.isUndefined a = a.toModel.unpack.isNaN := by
  change (!(a.toModel.unpack.compare a.toModel.unpack == some .eq)) = _
  rw [compare_eq]
  cases a.toModel.unpack.isNaN <;> simp

theorem le_iff : a ≤ b ↔ Scalar.isUndefined a = false ∧ Scalar.isUndefined b = false ∧
    place a.toModel.unpack ≤ place b.toModel.unpack := by
  rw [isUndefined_eq, isUndefined_eq]
  change decide ((a.toModel.unpack.compare b.toModel.unpack).any (·.isLE) = true) = true ↔ _
  rw [compare_eq, decide_eq_true_iff]
  cases a.toModel.unpack.isNaN <;> cases b.toModel.unpack.isNaN <;>
    simp [← Ordering.ne_gt_iff_isLE, compare_le_iff_le]

theorem lt_iff : a < b ↔ Scalar.isUndefined a = false ∧ Scalar.isUndefined b = false ∧
    place a.toModel.unpack < place b.toModel.unpack := by
  rw [isUndefined_eq, isUndefined_eq]
  change decide ((a.toModel.unpack.compare b.toModel.unpack == some .lt) = true) = true ↔ _
  rw [compare_eq, decide_eq_true_iff]
  cases a.toModel.unpack.isNaN <;> cases b.toModel.unpack.isNaN <;> simp [compare_lt_iff_lt]

theorem beq_iff : (a == b) = true ↔ Scalar.isUndefined a = false ∧ Scalar.isUndefined b = false ∧
    place a.toModel.unpack = place b.toModel.unpack := by
  rw [isUndefined_eq, isUndefined_eq]
  change (a.toModel.unpack.compare b.toModel.unpack == some .eq) = true ↔ _
  rw [compare_eq]
  cases a.toModel.unpack.isNaN <;> cases b.toModel.unpack.isNaN <;> simp [compare_eq_iff_eq]

end Binary64

instance Scalar.lawfulOrder_float : LawfulOrder Float where
  lt_iff := by
    intro a b
    change a < b ↔ a ≤ b ∧ ¬ b ≤ a
    rw [Binary64.lt_iff, Binary64.le_iff, Binary64.le_iff]
    constructor
    · rintro ⟨left, right, below⟩
      exact ⟨⟨left, right, below.le⟩, fun above => not_le_of_gt below above.2.2⟩
    · rintro ⟨⟨left, right, _⟩, notAbove⟩
      exact ⟨left, right, lt_of_not_ge fun above => notAbove ⟨right, left, above⟩⟩
  le_trans := by
    intro a b c first second
    obtain ⟨left, _, first⟩ := (Binary64.le_iff a b).1 first
    obtain ⟨_, right, second⟩ := (Binary64.le_iff b c).1 second
    exact (Binary64.le_iff a c).2 ⟨left, right, first.trans second⟩
  le_total := by
    intro a b left right
    rcases le_total (Binary64.place a.toModel.unpack) (Binary64.place b.toModel.unpack) with le | ge
    · exact .inl ((Binary64.le_iff a b).2 ⟨left, right, le⟩)
    · exact .inr ((Binary64.le_iff b a).2 ⟨right, left, ge⟩)
  defined_left := fun le => ((Binary64.le_iff _ _).1 le).1
  defined_right := fun le => ((Binary64.le_iff _ _).1 le).2.1
  defined_zero := by decide +kernel

instance Scalar.lawfulEquality_float : LawfulEquality Float where
  beq_iff := by
    intro a b
    change (a == b) = true ↔ a ≤ b ∧ b ≤ a
    rw [Binary64.beq_iff, Binary64.le_iff, Binary64.le_iff]
    constructor
    · rintro ⟨left, right, same⟩
      exact ⟨⟨left, right, same.le⟩, right, left, same.ge⟩
    · rintro ⟨⟨left, right, below⟩, _, _, above⟩
      exact ⟨left, right, le_antisymm below above⟩

/-! ### Exact numbers -/

instance Scalar.lawfulOrder_real : LawfulOrder ℝ where
  lt_iff := lt_iff_le_not_ge
  le_trans := le_trans
  le_total := fun _ _ => le_total _ _
  defined_left := fun _ => isUndefined_real _
  defined_right := fun _ => isUndefined_real _
  defined_zero := isUndefined_real 0

instance Scalar.lawfulEquality_real : LawfulEquality ℝ where
  beq_iff := by
    intro a b
    exact decide_eq_true_iff.trans le_antisymm_iff

end CompositeModels
