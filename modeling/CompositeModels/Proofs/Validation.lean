/-
Module: CompositeModels.Proofs.Validation
Purpose: What a passed length check says about the arrays that were checked, which array one that does
  not pass names, and what a sequence of checks that all passed says about each of them.
Main exports: exists_of_bind_eq_ok, checkVectors_eq_ok_iff, exists_misfit_of_checkVectors,
  Tensor.length_entries_of_shape
-/
import CompositeModels.Error

namespace CompositeModels

variable {α : Type}

/-- What follows a success starts from its value. -/
theorem ok_bind {ε β γ : Type} (value : β) (next : β → Except ε γ) :
    (Except.ok value >>= next) = next value := rfl

/-- A sequence succeeds only if its first part does. -/
theorem exists_of_bind_eq_ok {ε β γ : Type} {first : Except ε β} {next : β → Except ε γ} {value : γ}
    (succeeds : (first >>= next) = .ok value) :
    ∃ middle, first = .ok middle ∧ next middle = .ok value := by
  cases first with
  | ok middle => exact ⟨middle, rfl, succeeds⟩
  | error cause => cases succeeds

theorem bind_eq_ok_iff {ε β γ : Type} {first : Except ε β} {next : β → Except ε γ} {value : γ} :
    (first >>= next) = .ok value ↔ ∃ middle, first = .ok middle ∧ next middle = .ok value := by
  constructor
  · exact exists_of_bind_eq_ok
  · rintro ⟨middle, rfl, succeeds⟩
    exact succeeds

private theorem checkFrom_eq_ok_iff {n : Nat} :
    ∀ (shapes : List Shape) (position : Nat),
      checkVectors.checkFrom (α := α) (n : Int) position shapes = .ok () ↔
        ∀ shape ∈ shapes, shape = [n]
  | [], _ => by simp [checkVectors.checkFrom]
  | shape :: rest, position => by
      rw [checkVectors.checkFrom]
      by_cases fits : shape = [n]
      · rw [if_pos (Shape.isVectorOf_natCast.2 fits), checkFrom_eq_ok_iff rest]
        simp [fits]
      · rw [if_neg (fun vector => fits (Shape.isVectorOf_natCast.1 vector))]
        simp [fits]

/-- A length check passes for vectors of the expected length and for nothing else. -/
theorem checkVectors_eq_ok_iff {n : Nat} {shapes : List Shape} :
    checkVectors (α := α) (n : Int) shapes = .ok () ↔ ∀ shape ∈ shapes, shape = [n] :=
  checkFrom_eq_ok_iff shapes 0

private theorem exists_misfit_of_checkFrom {n : Nat} {shapes : List Shape}
    (misfit : ∃ shape ∈ shapes, shape ≠ [n]) (offset : Nat) :
    ∃ position shape, shapes[position]? = some shape ∧ shape ≠ [n] ∧
      (∀ earlier ∈ shapes.take position, earlier = [n]) ∧
      checkVectors.checkFrom (α := α) (n : Int) offset shapes =
        .error (.lengthMismatch (offset + position) shape n) := by
  induction shapes generalizing offset with
  | nil =>
      obtain ⟨_, member, _⟩ := misfit
      cases member
  | cons shape rest ih =>
      rw [checkVectors.checkFrom]
      by_cases fits : shape = [n]
      · have later : ∃ other ∈ rest, other ≠ [n] := by
          obtain ⟨other, member, different⟩ := misfit
          rcases List.mem_cons.1 member with rfl | member
          · exact absurd fits different
          · exact ⟨other, member, different⟩
        obtain ⟨position, found, entry, different, earlier, failed⟩ := ih later (offset + 1)
        rw [if_pos (Shape.isVectorOf_natCast.2 fits), failed]
        refine ⟨position + 1, found, entry, different, ?_, ?_⟩
        · intro other member
          rcases List.mem_cons.1 member with rfl | member
          · exact fits
          · exact earlier other member
        · rw [Nat.add_assoc, Nat.add_comm 1 position]
      · rw [if_neg (fun vector => fits (Shape.isVectorOf_natCast.1 vector))]
        refine ⟨0, shape, rfl, fits, ?_, rfl⟩
        intro other member
        cases member

/-- A length check that does not pass names the first array that does not fit. -/
theorem exists_misfit_of_checkVectors {n : Nat} {shapes : List Shape}
    (misfit : ∃ shape ∈ shapes, shape ≠ [n]) :
    ∃ position shape, shapes[position]? = some shape ∧ shape ≠ [n] ∧
      (∀ earlier ∈ shapes.take position, earlier = [n]) ∧
      checkVectors (α := α) (n : Int) shapes = .error (.lengthMismatch position shape n) := by
  obtain ⟨position, shape, found, different, earlier, failed⟩ :=
    exists_misfit_of_checkFrom (α := α) misfit 0
  rw [Nat.zero_add] at failed
  exact ⟨position, shape, found, different, earlier, failed⟩

theorem shape_eq_of_check {shape : Shape} {n : Nat}
    (passed : checkVectors (α := α) (n : Int) [shape] = .ok ()) : shape = [n] :=
  checkVectors_eq_ok_iff.1 passed shape (by simp)

theorem shapes_eq_of_check {first second : Shape} {n : Nat}
    (passed : checkVectors (α := α) (n : Int) [first, second] = .ok ()) :
    first = [n] ∧ second = [n] :=
  ⟨checkVectors_eq_ok_iff.1 passed first (by simp),
    checkVectors_eq_ok_iff.1 passed second (by simp)⟩

@[simp] theorem checkVectors_self (n : Nat) :
    checkVectors (α := α) (n : Int) [[n]] = .ok () :=
  checkVectors_eq_ok_iff.2 (by simp)

@[simp] theorem checkVectors_self_self (n : Nat) :
    checkVectors (α := α) (n : Int) [[n], [n]] = .ok () :=
  checkVectors_eq_ok_iff.2 (by simp)

namespace Tensor

theorem length_entries_of_shape {t : Tensor α} {n : Nat} (shape : t.shape = [n]) :
    t.entries.length = n :=
  length_of_isVectorOf (Shape.isVectorOf_natCast.2 shape)

/-- What is written into an empty buffer is the empty vector. -/
theorem entries_eq_nil {t : Tensor α} {n : Nat} (shape : t.shape = [n]) (empty : ¬ 0 < n) :
    t.entries = [] := by
  have length : t.entries.length = n := length_entries_of_shape shape
  exact List.length_eq_zero_iff.1 (by omega)

end Tensor

end CompositeModels
