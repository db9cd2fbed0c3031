/-
Module: CompositeModels.Proofs.PenaltyShapes
Purpose: What becomes of penalty parameters and multipliers of any shape. Only the multipliers are checked,
  against the extent of the first axis of the parameters, and the product of the two runs along the last
  axis. So parameters without axes are refused for another cause than their shape, and parameters with
  several axes may be accepted.
Main exports: Tensor.mulVector?_eq_none_iff, Tensor.shape_of_mulVector?, Penalty.make_of_single,
  Penalty.make_of_misfit, Penalty.make_of_nonpositive, Penalty.make_of_axes, Penalty.Validates,
  Penalty.validates_iff
-/
import CompositeModels.Proofs.Exact
import CompositeModels.Proofs.Construction

namespace CompositeModels

variable {α : Type} [Scalar α]

/-! ### Products along the last axis -/

namespace Tensor

variable {t product : Tensor α} {v : List α} {columns : Nat}

/-- The product is refused unless the last axis and the vector have the same extent, or one of them can
be stretched. -/
theorem mulVector?_eq_none_iff (last : t.shape.getLast? = some columns) :
    t.mulVector? v = none ↔ ¬ (columns = v.length ∨ columns = 1 ∨ v.length = 1) := by
  simp only [mulVector?, last]
  split
  · next fits => simp [fits]
  · next misfits => simp [misfits]

/-- The product has the shape of the array, with the last axis stretched to the vector if its extent is
one. -/
theorem shape_of_mulVector? (last : t.shape.getLast? = some columns)
    (multiplied : t.mulVector? v = some product) :
    product.shape = t.shape.dropLast ++ [if columns = 1 then v.length else columns] := by
  simp only [mulVector?, last] at multiplied
  split at multiplied
  · cases multiplied
    rfl
  · cases multiplied

end Tensor

namespace Penalty

variable {mu y : Tensor α} {rows columns : Nat} {rest : Shape}

/-! ### The outcome for each shape -/

/-- There is no first axis to count the multipliers by. -/
theorem make_of_single (shape : mu.shape = []) : make mu y = .error .missingAxis := by
  simp only [make, shape]
  rfl

theorem make_of_misfit (shape : mu.shape = rows :: rest) (misfit : y.shape ≠ [rows]) :
    make mu y = .error (.lengthMismatch 0 y.shape rows) := by
  have checked : checkVectors (α := α) (rows : Int) [y.shape] =
      .error (.lengthMismatch 0 y.shape rows) :=
    if_neg fun vector => misfit (Shape.isVectorOf_natCast.1 vector)
  simp only [make, shape, List.head?_cons, pure_bind, checked]
  rfl

theorem make_of_nonpositive (shape : mu.shape = rows :: rest) (fits : y.shape = [rows])
    (nonpositive : Vec.allPositive mu.entries = false) :
    make mu y = .error .nonpositivePenalty := by
  simp only [make, shape, fits, nonpositive, List.head?_cons, pure_bind, checkVectors_self]
  rfl

/-- With several axes, the last one decides. -/
theorem make_of_axes (shape : mu.shape = rows :: rest) (fits : y.shape = [rows])
    (positive : Vec.allPositive mu.entries = true) (last : rest.getLast? = some columns) :
    ((columns = rows ∨ columns = 1 ∨ rows = 1) → ∃ penalty, make mu y = .ok penalty ∧
        penalty.mu = mu ∧ penalty.y = y ∧
        penalty.shift.shape =
          mu.shape.dropLast ++ [if columns = 1 then rows else columns]) ∧
      (¬ (columns = rows ∨ columns = 1 ∨ rows = 1) →
        make mu y = .error (.incompatibleShapes mu.shape y.shape)) := by
  have lengthY : y.entries.length = rows := Tensor.length_entries_of_shape fits
  have head : mu.shape.head? = some rows := by rw [shape, List.head?_cons]
  have lastMu : mu.shape.getLast? = some columns := by
    rw [shape, List.getLast?_cons, last]
    rfl
  have refused := Tensor.mulVector?_eq_none_iff (v := y.entries) lastMu
  rw [lengthY] at refused
  constructor
  · intro stretches
    obtain ⟨shift, product⟩ := Option.ne_none_iff_exists'.1 fun none => refused.1 none stretches
    have shiftShape := Tensor.shape_of_mulVector? lastMu product
    rw [lengthY] at shiftShape
    -- The first product has stretched its last axis, so the second one cannot be refused.
    have lastShift : shift.shape.getLast? = some (if columns = 1 then rows else columns) := by
      rw [shiftShape, List.getLast?_concat]
    have again := Tensor.mulVector?_eq_none_iff (v := y.entries) lastShift
    have stretched : (if columns = 1 then rows else columns) = y.entries.length ∨
        (if columns = 1 then rows else columns) = 1 ∨ y.entries.length = 1 := by
      rw [lengthY]
      split
      · exact .inl rfl
      · exact stretches
    obtain ⟨weighted, secondProduct⟩ :=
      Option.ne_none_iff_exists'.1 fun none => again.1 none stretched
    refine ⟨⟨mu, y, shift, Scalar.half * Vec.total weighted.entries⟩, ?_, rfl, rfl, shiftShape⟩
    simp only [make, head, fits, positive, product, secondProduct, pure_bind, checkVectors_self]
    rfl
  · intro misfits
    simp only [make, head, fits, positive, refused.2 misfits, pure_bind, checkVectors_self]
    rfl

/-! ### What validation promises -/

/-- Vectors of one length, the first of them positive, are accepted with the derived terms that belong to
them. Shapes that are not those of two vectors of one length are refused as such, and parameters that
are not positive are refused as well. -/
structure Validates (mu y : Tensor α) : Prop where
  accepted : ∀ penalty, make mu y = .ok penalty → ∃ n, penalty.Fits n
  admitted : ∀ n, Admissible n mu y →
    ∃ penalty, make mu y = .ok penalty ∧ penalty.mu = mu ∧ penalty.y = y ∧ penalty.Fits n
  mismatch : (¬ ∃ n, mu.shape = [n] ∧ y.shape = [n]) →
    ∃ position shape expected, make mu y = .error (.lengthMismatch position shape expected)
  nonpositive : (∃ n, mu.shape = [n] ∧ y.shape = [n]) → Vec.allPositive mu.entries = false →
    make mu y = .error .nonpositivePenalty

theorem exists_make_of_admissible {n : Nat} (admissible : Admissible n mu y) :
    ∃ penalty, make mu y = .ok penalty ∧ penalty.mu = mu ∧ penalty.y = y ∧ penalty.Fits n :=
  ⟨ofVectors mu y, make_of_admissible admissible, rfl, rfl, fits_ofVectors admissible⟩

theorem validates_of_vector (shape : mu.shape = [rows]) : Validates mu y where
  accepted := by
    intro penalty made
    obtain ⟨_, _, _, _, _, _, _, _, same⟩ := exists_of_make made
    have shapeMu : penalty.mu.shape = [rows] := by rw [same, shape]
    refine ⟨rows, ?_⟩
    rw [eq_ofVectors_of_make made shapeMu]
    exact fits_ofVectors (admissible_of_make made shapeMu)
  admitted := fun _ admissible => exists_make_of_admissible admissible
  mismatch := by
    intro apart
    exact ⟨0, y.shape, rows, make_of_misfit shape fun fits => apart ⟨rows, shape, fits⟩⟩
  nonpositive := by
    rintro ⟨n, shapeMu, fits⟩
    exact make_of_nonpositive shapeMu fits

/-- Where the multipliers are refused, the number of axes of the parameters does not matter. -/
theorem validates_of_misfit (shape : mu.shape = rows :: rest) (misfit : y.shape ≠ [rows]) :
    Validates mu y where
  accepted := by
    intro penalty made
    rw [make_of_misfit shape misfit] at made
    cases made
  admitted := fun _ admissible => exists_make_of_admissible admissible
  mismatch := fun _ => ⟨0, y.shape, rows, make_of_misfit shape misfit⟩
  nonpositive := by
    rintro ⟨n, shapeMu, fits⟩
    exact make_of_nonpositive shapeMu fits

/-- Parameters with several axes are never refused for a wrong length, once the multipliers fit. -/
theorem not_validates_of_axes (shape : mu.shape = rows :: rest) (fits : y.shape = [rows])
    (several : rest ≠ []) : ¬ Validates mu y := by
  intro validates
  have apart : ¬ ∃ n, mu.shape = [n] ∧ y.shape = [n] := by
    rintro ⟨n, vector, _⟩
    rw [shape] at vector
    exact several (List.tail_eq_of_cons_eq vector)
  obtain ⟨position, other, expected, refused⟩ := validates.mismatch apart
  cases positive : Vec.allPositive mu.entries with
  | false =>
      rw [make_of_nonpositive shape fits positive] at refused
      cases refused
  | true =>
      have last := List.getLast?_eq_some_getLast several
      have outcome := make_of_axes shape fits positive last
      by_cases stretches : rest.getLast several = rows ∨ rest.getLast several = 1 ∨ rows = 1
      · obtain ⟨penalty, made, _⟩ := outcome.1 stretches
        rw [made] at refused
        cases refused
      · rw [outcome.2 stretches] at refused
        cases refused

/-- For all arrays, over every scalar: validation keeps its promises exactly if the parameters have an axis
and, should they have more than one, the multipliers are refused already. Parameters without axes are
refused for want of one. Otherwise the multipliers must be as many as the extent of the first axis, the
parameters must be positive, and with several axes it is the last one that decides: its extent must be that
number or one, or that number must be one, and then the derived product has as many axes as the
parameters. -/
theorem validates_iff (mu y : Tensor α) :
    (Validates mu y ↔
      ∃ rows rest, mu.shape = rows :: rest ∧ (rest = [] ∨ y.shape ≠ [rows])) ∧
    (mu.shape = [] → make mu y = .error .missingAxis) ∧
    ∀ rows rest, mu.shape = rows :: rest →
      (y.shape ≠ [rows] → make mu y = .error (.lengthMismatch 0 y.shape rows)) ∧
      (y.shape = [rows] → Vec.allPositive mu.entries = false →
        make mu y = .error .nonpositivePenalty) ∧
      (y.shape = [rows] → Vec.allPositive mu.entries = true → rest = [] →
        make mu y = .ok (ofVectors mu y) ∧ (ofVectors mu y).Fits rows) ∧
      ∀ columns, y.shape = [rows] → Vec.allPositive mu.entries = true →
        rest.getLast? = some columns →
        ((columns = rows ∨ columns = 1 ∨ rows = 1) → ∃ penalty, make mu y = .ok penalty ∧
          penalty.mu = mu ∧ penalty.y = y ∧
          penalty.shift.shape = mu.shape.dropLast ++ [if columns = 1 then rows else columns]) ∧
        (¬ (columns = rows ∨ columns = 1 ∨ rows = 1) →
          make mu y = .error (.incompatibleShapes mu.shape y.shape)) := by
  refine ⟨⟨fun validates => ?promises, ?keeps⟩, make_of_single, fun rows rest shape =>
    ⟨make_of_misfit shape, make_of_nonpositive shape, fun fits positive vector => ?vector,
      fun columns fits positive last => make_of_axes shape fits positive last⟩⟩
  case promises =>
    cases shape : mu.shape with
    | nil =>
        have apart : ¬ ∃ n, mu.shape = [n] ∧ y.shape = [n] := by
          rintro ⟨n, vector, _⟩
          cases shape.symm.trans vector
        obtain ⟨position, other, expected, refused⟩ := validates.mismatch apart
        rw [make_of_single shape] at refused
        cases refused
    | cons rows rest =>
        refine ⟨rows, rest, rfl, ?_⟩
        by_cases several : rest = []
        · exact .inl several
        · exact .inr fun fits => not_validates_of_axes shape fits several validates
  case keeps =>
    rintro ⟨rows, rest, shape, rfl | misfit⟩
    · exact validates_of_vector shape
    · exact validates_of_misfit shape misfit
  case vector =>
    have admissible : Admissible rows mu y := ⟨by rw [shape, vector], fits, positive⟩
    exact ⟨make_of_admissible admissible, fits_ofVectors admissible⟩

/-- Four parameters in two rows are accepted with two multipliers, and the derived products are no vector
either. A single parameter is not refused for its shape. -/
theorem not_validates_matrix :
    (∃ penalty : Penalty ℝ, make ⟨[2, 2], [1, 2, 3, 4], rfl⟩ (.vector [1, 2]) = .ok penalty ∧
      penalty.mu.shape = [2, 2] ∧ penalty.shift.shape = [2, 2]) ∧
    make (.single 2) (.vector [1]) = (.error .missingAxis : Except (Error ℝ) (Penalty ℝ)) ∧
    ¬ Validates (⟨[2, 2], [1, 2, 3, 4], rfl⟩ : Tensor ℝ) (.vector [1, 2]) := by
  have shape : (⟨[2, 2], [1, 2, 3, 4], rfl⟩ : Tensor ℝ).shape = [2, 2] := rfl
  have fits : (Tensor.vector [1, (2 : ℝ)]).shape = [2] := rfl
  have positive : Vec.allPositive [1, 2, 3, (4 : ℝ)] = true := by simp [Vec.allPositive]
  refine ⟨?_, make_of_single rfl, not_validates_of_axes shape fits (List.cons_ne_nil _ _)⟩
  obtain ⟨penalty, made, same, _, shiftShape⟩ :=
    (make_of_axes shape fits positive rfl).1 (.inl rfl)
  exact ⟨penalty, made, by rw [same], shiftShape⟩

end Penalty

end CompositeModels
