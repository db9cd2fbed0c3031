/-
Module: CompositeModels.Proofs.Realization
Purpose: An oracle realizes a meaning when each of its operations answers as the meaning says, from
  every valid store and with every buffer. The operations check their arguments first, so it is enough
  that the hooks answer for vectors of the declared lengths.
Main exports: Hooks.RealizesConstraints, Hooks.RealizesTerm, Hooks.RealizesSmoothAt,
  Oracle.RealizesConstraints, Oracle.RealizesTerm, Oracle.RealizesSmoothAt,
  Hooks.RealizesConstraints.oracle, Hooks.RealizesTerm.oracle, Hooks.RealizesSmoothAt.oracle
-/
import CompositeModels.Proofs.Answers
import CompositeModels.Proofs.Meaning

namespace CompositeModels

open Eval (Answers AnswersAt)

variable {α : Type}

/-! ### Hooks -/

/-- Hooks about `c` and `S`, which are asked for models with constraints only. Their answers never
depend on what was asked before. -/
structure Hooks.RealizesConstraints (hooks : Hooks α) (valid : Store α → Prop)
    (meaning : ConstraintMeaning α) : Prop where
  constraints : ∀ {x out}, 0 < meaning.ncon → x.length = meaning.nvar →
    out.length = meaning.ncon →
    Answers valid True (hooks.constraints x out) (·.length = meaning.ncon) (meaning.constraints x)
  jacobianProduct : ∀ {x v out}, 0 < meaning.ncon → x.length = meaning.nvar →
    v.length = meaning.nvar → out.length = meaning.ncon →
    Answers valid True (hooks.jacobianProduct x v out) (·.length = meaning.ncon)
      (meaning.jacobianProduct x v)
  adjointProduct : ∀ {x v out}, 0 < meaning.ncon → x.length = meaning.nvar →
    v.length = meaning.ncon → out.length = meaning.nvar →
    Answers valid True (hooks.adjointProduct x v out) (·.length = meaning.nvar)
      (meaning.adjointProduct x v)
  project : ∀ {v out}, 0 < meaning.ncon → v.length = meaning.ncon → out.length = meaning.ncon →
    Answers valid True (hooks.project v out) (·.length = meaning.ncon) (meaning.project v)
  distance : ∀ {v}, 0 < meaning.ncon → v.length = meaning.ncon →
    Answers valid True (hooks.distance v) (fun _ => True) (meaning.distance v)

/-- Hooks about `g`. -/
structure Hooks.RealizesTerm (hooks : Hooks α) (valid : Store α → Prop) (meaning : TermMeaning α) :
    Prop where
  proximal : ∀ {x step out}, x.length = meaning.nvar → out.length = meaning.nvar →
    Answers valid True (hooks.proximal x step out) (·.length = meaning.nvar)
      (meaning.proximal x step)
  proximalWithValue : ∀ {x step out}, x.length = meaning.nvar → out.length = meaning.nvar →
    Answers valid True (hooks.proximalWithValue x step out) (·.2.length = meaning.nvar)
      (meaning.proximalWithValue x step)

/-- Hooks about `f` at one point. A model that keeps a residual answers as its meaning says under a
condition on its base, so the agreement may have a condition. What it keeps may concern one point only,
so that the valid stores are those for this point. -/
structure Hooks.RealizesSmoothAt (hooks : Hooks α) (valid : Store α → Prop) (certain : Prop)
    (meaning : SmoothMeaning α) (x : List α) : Prop where
  objective : Answers valid certain (hooks.objective x) (fun _ => True) (meaning.objective x)
  gradient : ∀ {out}, out.length = meaning.nvar →
    Answers valid certain (hooks.gradient x out) (·.length = meaning.nvar) (meaning.gradient x)
  objectiveGradient : ∀ {out}, out.length = meaning.nvar →
    Answers valid certain (hooks.objectiveGradient x out) (·.2.length = meaning.nvar)
      (meaning.objectiveGradient x)

/-! ### Oracles -/

variable [Scalar α]

/-- A result of the declared length `n` fills the buffer that was given for it. -/
structure Oracle.Fills (n : Nat) (out : Option (Tensor α)) (result : List α) : Prop where
  length : result.length = n
  room : (buffer n out).shape = [n]

theorem Oracle.Fills.length_out {n : Nat} {out result : List α}
    (fills : Fills n (some (.vector out)) result) : result.length = out.length := by
  have room := fills.room
  simp only [buffer, Option.getD_some, Tensor.shape_vector, List.cons.injEq, and_true] at room
  rw [fills.length, room]

/-- Operations about `c` and `S`. -/
structure Oracle.RealizesConstraints (oracle : Oracle α) (valid : Store α → Prop)
    (meaning : ConstraintMeaning α) : Prop where
  nvar : meaning.nvar = oracle.header.nvar
  ncon : meaning.ncon = oracle.header.ncon
  constraints : ∀ x out, Answers valid True (oracle.constraints x out)
    (Oracle.Fills meaning.ncon out) (meaning.constraintsAt x out)
  jacobianProduct : ∀ x v out, Answers valid True (oracle.jacobianProduct x v out)
    (Oracle.Fills meaning.ncon out) (meaning.jacobianProductAt x v out)
  adjointProduct : ∀ x v out, Answers valid True (oracle.adjointProduct x v out)
    (Oracle.Fills meaning.nvar out) (meaning.adjointProductAt x v out)
  project : ∀ v out, Answers valid True (oracle.project v out)
    (Oracle.Fills meaning.ncon out) (meaning.projectAt v out)
  distance : ∀ v, Answers valid True (oracle.distance v) (fun _ => True) (meaning.distanceAt v)

/-- Operations about `g`. -/
structure Oracle.RealizesTerm (oracle : Oracle α) (valid : Store α → Prop)
    (meaning : TermMeaning α) : Prop where
  nvar : meaning.nvar = oracle.header.nvar
  proximal : ∀ x step out, Answers valid True (oracle.proximal x step out)
    (Oracle.Fills meaning.nvar out) (meaning.proximalAt x step out)
  proximalWithValue : ∀ x step out, Answers valid True (oracle.proximalWithValue x step out)
    (Oracle.Fills meaning.nvar out ·.2) (meaning.proximalWithValueAt x step out)

/-- Operations about `f` at one point. -/
structure Oracle.RealizesSmoothAt (oracle : Oracle α) (valid : Store α → Prop) (certain : Prop)
    (restriction : ConstraintMeaning α) (meaning : SmoothMeaning α) (x : Tensor α) : Prop where
  nvar : meaning.nvar = oracle.header.nvar
  objective : Answers valid certain (oracle.objective x) (fun _ => True) (meaning.objectiveAt x)
  gradient : ∀ out, Answers valid certain (oracle.gradient x out)
    (Oracle.Fills meaning.nvar out) (meaning.gradientAt x out)
  objectiveGradient : ∀ out, Answers valid certain (oracle.objectiveGradient x out)
    (Oracle.Fills meaning.nvar out ·.2) (meaning.objectiveGradientAt x out)
  objectiveConstraints : ∀ out, Answers valid certain (oracle.objectiveConstraints x out)
    (Oracle.Fills restriction.ncon out ·.2) (meaning.objectiveConstraintsAt restriction x out)

/-! ### From hooks to oracles -/

theorem Hooks.RealizesConstraints.oracle {oracle : Oracle α} {valid : Store α → Prop}
    {meaning : ConstraintMeaning α} (hooks : oracle.hooks.RealizesConstraints valid meaning)
    (nvar : meaning.nvar = oracle.header.nvar) (ncon : meaning.ncon = oracle.header.ncon) :
    oracle.RealizesConstraints valid meaning where
  nvar := nvar
  ncon := ncon
  constraints := by
    intro x out store holds
    simp only [Oracle.constraints, ConstraintMeaning.constraintsAt, nvar, ncon]
    apply AnswersAt.check_bind holds
    intro checkedX
    apply AnswersAt.check_bind holds
    intro checkedOut
    have lengthX := Tensor.length_entries_of_shape (shape_eq_of_check checkedX)
    have lengthOut := Tensor.length_entries_of_shape (shape_eq_of_check checkedOut)
    split
    · next some =>
        have answers :=
          hooks.constraints (ncon ▸ some) (lengthX.trans nvar.symm) (lengthOut.trans ncon.symm)
        exact (answers store holds).mono id fun _ length =>
          ⟨length.trans ncon, shape_eq_of_check checkedOut⟩
    · next none =>
        rw [Tensor.entries_eq_nil (shape_eq_of_check checkedOut) none]
        exact .pure holds ⟨by simp; omega, shape_eq_of_check checkedOut⟩
  jacobianProduct := by
    intro x v out store holds
    simp only [Oracle.jacobianProduct, ConstraintMeaning.jacobianProductAt, nvar, ncon]
    apply AnswersAt.check_bind holds
    intro checkedPoints
    apply AnswersAt.check_bind holds
    intro checkedOut
    have lengthX := Tensor.length_entries_of_shape (shapes_eq_of_check checkedPoints).1
    have lengthV := Tensor.length_entries_of_shape (shapes_eq_of_check checkedPoints).2
    have lengthOut := Tensor.length_entries_of_shape (shape_eq_of_check checkedOut)
    split
    · next some =>
        have answers := hooks.jacobianProduct (ncon ▸ some) (lengthX.trans nvar.symm)
          (lengthV.trans nvar.symm) (lengthOut.trans ncon.symm)
        exact (answers store holds).mono id fun _ length =>
          ⟨length.trans ncon, shape_eq_of_check checkedOut⟩
    · next none =>
        rw [Tensor.entries_eq_nil (shape_eq_of_check checkedOut) none]
        exact .pure holds ⟨by simp; omega, shape_eq_of_check checkedOut⟩
  adjointProduct := by
    intro x v out store holds
    simp only [Oracle.adjointProduct, ConstraintMeaning.adjointProductAt, nvar, ncon]
    apply AnswersAt.check_bind holds
    intro checkedPoints
    apply AnswersAt.check_bind holds
    intro checkedV
    have lengthX := Tensor.length_entries_of_shape (shapes_eq_of_check checkedPoints).1
    have lengthOut := Tensor.length_entries_of_shape (shapes_eq_of_check checkedPoints).2
    have lengthV := Tensor.length_entries_of_shape (shape_eq_of_check checkedV)
    split
    · next some =>
        have answers := hooks.adjointProduct (ncon ▸ some) (lengthX.trans nvar.symm)
          (lengthV.trans ncon.symm) (lengthOut.trans nvar.symm)
        exact (answers store holds).mono id fun _ length =>
          ⟨length.trans nvar, (shapes_eq_of_check checkedPoints).2⟩
    · rw [Vec.zeroed_eq_zeros, lengthOut]
      exact .pure holds ⟨Vec.length_zeros _, (shapes_eq_of_check checkedPoints).2⟩
  project := by
    intro v out store holds
    simp only [Oracle.project, ConstraintMeaning.projectAt, ncon]
    apply AnswersAt.check_bind holds
    intro checked
    have lengthV := Tensor.length_entries_of_shape (shapes_eq_of_check checked).1
    have lengthOut := Tensor.length_entries_of_shape (shapes_eq_of_check checked).2
    split
    · next some =>
        have answers :=
          hooks.project (ncon ▸ some) (lengthV.trans ncon.symm) (lengthOut.trans ncon.symm)
        exact (answers store holds).mono id fun _ length =>
          ⟨length.trans ncon, (shapes_eq_of_check checked).2⟩
    · next none =>
        rw [Tensor.entries_eq_nil (shapes_eq_of_check checked).2 none]
        exact .pure holds ⟨by simp; omega, (shapes_eq_of_check checked).2⟩
  distance := by
    intro v store holds
    simp only [Oracle.distance, ConstraintMeaning.distanceAt, ncon]
    apply AnswersAt.check_bind holds
    intro checked
    have lengthV := Tensor.length_entries_of_shape (shape_eq_of_check checked)
    split
    · next some => exact hooks.distance (ncon ▸ some) (lengthV.trans ncon.symm) store holds
    · exact .pure holds trivial

/-- The check of a proximal step passes or fails alike on both sides. -/
private theorem requirePositiveStep_bind {β : Type} {valid : Store α → Prop} {certain : Prop}
    {good : β → Prop} {store : Store α} {step : α} {next : Unit → Eval α β}
    {answerNext : Unit → Except (Error α) β} (holds : valid store)
    (rest : AnswersAt valid certain (next ()) good (answerNext ()) store) :
    AnswersAt valid certain (Oracle.requirePositiveStep step >>= next) good
      (TermMeaning.requirePositiveStep step >>= answerNext) store := by
  unfold Oracle.requirePositiveStep TermMeaning.requirePositiveStep
  by_cases positive : 0 < step
  · rw [if_pos positive, if_pos positive]
    exact rest
  · rw [if_neg positive, if_neg positive]
    exact .throw holds

theorem Hooks.RealizesTerm.oracle {oracle : Oracle α} {valid : Store α → Prop}
    {meaning : TermMeaning α} (hooks : oracle.hooks.RealizesTerm valid meaning)
    (nvar : meaning.nvar = oracle.header.nvar) : oracle.RealizesTerm valid meaning where
  nvar := nvar
  proximal := by
    intro x step out store holds
    simp only [Oracle.proximal, TermMeaning.proximalAt, nvar]
    apply AnswersAt.check_bind holds
    intro checked
    apply requirePositiveStep_bind holds
    have lengthX := Tensor.length_entries_of_shape (shapes_eq_of_check checked).1
    have lengthOut := Tensor.length_entries_of_shape (shapes_eq_of_check checked).2
    have answers : Answers valid True (oracle.hooks.proximal x.entries step _) _ _ :=
      hooks.proximal (lengthX.trans nvar.symm) (lengthOut.trans nvar.symm)
    exact (answers store holds).mono id fun _ length =>
      ⟨length.trans nvar, (shapes_eq_of_check checked).2⟩
  proximalWithValue := by
    intro x step out store holds
    simp only [Oracle.proximalWithValue, TermMeaning.proximalWithValueAt, nvar]
    apply AnswersAt.check_bind holds
    intro checked
    apply requirePositiveStep_bind holds
    have lengthX := Tensor.length_entries_of_shape (shapes_eq_of_check checked).1
    have lengthOut := Tensor.length_entries_of_shape (shapes_eq_of_check checked).2
    have answers : Answers valid True (oracle.hooks.proximalWithValue x.entries step _) _ _ :=
      hooks.proximalWithValue (lengthX.trans nvar.symm) (lengthOut.trans nvar.symm)
    exact (answers store holds).mono id fun _ length =>
      ⟨length.trans nvar, (shapes_eq_of_check checked).2⟩

/-- Besides the smooth hooks, an oracle has a hook for the objective and the constraints together. In
every model it asks for one after the other. -/
theorem Hooks.RealizesSmoothAt.oracle {oracle : Oracle α} {valid : Store α → Prop} {certain : Prop}
    {restriction : ConstraintMeaning α} {meaning : SmoothMeaning α} {x : Tensor α}
    (hooks : x.entries.length = meaning.nvar →
      oracle.hooks.RealizesSmoothAt valid certain meaning x.entries)
    (constraints : oracle.hooks.RealizesConstraints valid restriction)
    (separate : oracle.hooks.objectiveConstraints =
      Hooks.separateObjectiveConstraints oracle.header oracle.hooks.objective
        oracle.hooks.constraints)
    (nvar : meaning.nvar = oracle.header.nvar) (nvarRestriction : restriction.nvar = meaning.nvar)
    (ncon : restriction.ncon = oracle.header.ncon) :
    oracle.RealizesSmoothAt valid certain restriction meaning x where
  nvar := nvar
  objective := by
    intro store holds
    simp only [Oracle.objective, SmoothMeaning.objectiveAt, nvar]
    apply AnswersAt.check_bind holds
    intro checked
    have lengthX := Tensor.length_entries_of_shape (shape_eq_of_check checked)
    exact (hooks (lengthX.trans nvar.symm)).objective store holds
  gradient := by
    intro out store holds
    simp only [Oracle.gradient, SmoothMeaning.gradientAt, nvar]
    apply AnswersAt.check_bind holds
    intro checked
    have lengthX := Tensor.length_entries_of_shape (shapes_eq_of_check checked).1
    have lengthOut := Tensor.length_entries_of_shape (shapes_eq_of_check checked).2
    have answers := (hooks (lengthX.trans nvar.symm)).gradient (lengthOut.trans nvar.symm)
    exact (answers store holds).mono id fun _ length =>
      ⟨length.trans nvar, (shapes_eq_of_check checked).2⟩
  objectiveGradient := by
    intro out store holds
    simp only [Oracle.objectiveGradient, SmoothMeaning.objectiveGradientAt, nvar]
    apply AnswersAt.check_bind holds
    intro checked
    have lengthX := Tensor.length_entries_of_shape (shapes_eq_of_check checked).1
    have lengthOut := Tensor.length_entries_of_shape (shapes_eq_of_check checked).2
    have answers := (hooks (lengthX.trans nvar.symm)).objectiveGradient (lengthOut.trans nvar.symm)
    exact (answers store holds).mono id fun _ length =>
      ⟨length.trans nvar, (shapes_eq_of_check checked).2⟩
  objectiveConstraints := by
    intro out store holds
    simp only [Oracle.objectiveConstraints, SmoothMeaning.objectiveConstraintsAt, nvar, ncon,
      separate, Hooks.separateObjectiveConstraints]
    apply AnswersAt.check_bind holds
    intro checkedX
    apply AnswersAt.check_bind holds
    intro checkedOut
    have lengthX := Tensor.length_entries_of_shape (shape_eq_of_check checkedX)
    have lengthOut := Tensor.length_entries_of_shape (shape_eq_of_check checkedOut)
    apply ((hooks (lengthX.trans nvar.symm)).objective store holds).bind
    intro value later _ holds
    split
    · next some =>
        have answers := constraints.constraints (ncon ▸ some)
          (lengthX.trans (nvar.symm.trans nvarRestriction.symm)) (lengthOut.trans ncon.symm)
        apply ((answers later holds).mono (fun _ => trivial) fun _ length => length).bind
        intro content last length holds
        exact .pure holds ⟨length.trans ncon, shape_eq_of_check checkedOut⟩
    · next none =>
        rw [Tensor.entries_eq_nil (shape_eq_of_check checkedOut) none]
        exact .pure holds ⟨by simp; omega, shape_eq_of_check checkedOut⟩

end CompositeModels
