/-
Module: CompositeModels.Proofs.Realization.AugmentedLagrangian
Purpose: The evaluations of an augmented Lagrangian answer as functions of the point and of the penalty
  data in force. Its buffers keep their lengths through every evaluation, also one that fails halfway,
  and each evaluation writes a buffer before it reads it, so what an earlier one left there is lost.
Main exports: AugmentedLagrangian.answers_constraintValues, AugmentedLagrangian.answers_penaltyTerm,
  AugmentedLagrangian.answers_pullback, AugmentedLagrangian.realizesSmooth,
  AugmentedLagrangian.answers_multiplierEstimate
-/
import CompositeModels.Proofs.Realization.Constraints

namespace CompositeModels.AugmentedLagrangian

open Eval (Answers AnswersAt)

variable {α : Type} [Elementary α] {models : List (Model α)} {penalties : Table (Penalty α)}
  {node : AugmentedLagrangian α} {base : Model α} {valid : Store α → Prop} {certain : Prop}

/-- The estimate of the multipliers that belongs to given constraint values has as many entries as there
are constraints. -/
theorem length_estimate {ncon : Nat} {penalty : Penalty α} (fits : penalty.Fits ncon)
    {values projected : List α} (lengthValues : values.length = ncon)
    (lengthProjected : projected.length = ncon) :
    (Vec.div (Vec.sub (Vec.add values penalty.shift.entries) projected) penalty.mu.entries).length =
      ncon := by
  have lengthMu := Tensor.length_entries_of_shape fits.mu
  have lengthShift := Tensor.length_entries_of_shape fits.shiftShape
  simp [lengthValues, lengthProjected, lengthMu, lengthShift]

/-! ### Steps on the buffers -/

/-- What follows a change of the buffers starts from a valid store, as long as the change keeps their
lengths. -/
theorem modifyScratch_bind {β : Type} {good : β → Prop} {answer : Except (Error α) β}
    {change : Scratch α → Scratch α} {next : Unit → Eval α β} {store : Store α}
    (steady : Store.Steady models penalties valid) (member : .augmentedLagrangian node base ∈ models)
    (holds : valid store)
    (keeps : ∀ scratch : Scratch α, scratch.Fits base.header.nvar base.header.ncon →
      (change scratch).Fits base.header.nvar base.header.ncon)
    (rest : ∀ later : Store α, valid later → AnswersAt valid certain (next ()) good answer later) :
    AnswersAt valid certain (node.modifyScratch base.oracle change >>= next) good answer store := by
  have fits := keeps _ ((steady.ready holds).scratch member)
  exact .modify_bind (rest _ (steady.setScratch member fits holds))

theorem answers_constraintValues (family : Family models)
    (steady : Store.Steady models penalties valid) (member : .augmentedLagrangian node base ∈ models)
    {x : List α} :
    Answers valid certain (node.constraintValues base.oracle x)
      (·.length = base.header.ncon) (base.constraintMeaning.constraintsAt (.vector x) none) := by
  intro store holds
  have baseMember : base ∈ models := family.bases member rfl
  have realizes : base.oracle.RealizesConstraints valid base.constraintMeaning :=
    Model.realizesConstraints_of_steady family steady baseMember
  have room : (node.scratch base.oracle store).constraints.length = base.constraintMeaning.ncon := by
    simpa using ((steady.ready holds).scratch member).constraints
  have answers := realizes.constraints (.vector x)
    (some (.vector (node.scratch base.oracle store).constraints)) store holds
  rw [ConstraintMeaning.constraintsAt_some room] at answers
  rw [← bind_pure (base.constraintMeaning.constraintsAt (.vector x) none)]
  refine .get_bind ((answers.mono (fun _ => trivial) fun _ fills => fills).bind ?_)
  intro values later fills holds
  have length : values.length = base.header.ncon := by simpa using fills.length
  refine modifyScratch_bind steady member holds (fun scratch fits => ?_) fun last holds => ?_
  · exact { fits with constraints := length }
  · exact .pure holds length

theorem answers_penaltyTerm (family : Family models)
    (steady : Store.Steady models penalties valid) (member : .augmentedLagrangian node base ∈ models)
    {values : List α} (length : values.length = base.header.ncon) :
    Answers valid certain (node.penaltyTerm base.oracle values)
      (·.2.length = base.header.ncon)
      (penaltyMeaning (node.penaltyIn penalties) base.constraintMeaning values) := by
  intro store holds
  have baseMember : base ∈ models := family.bases member rfl
  have realizes : base.oracle.RealizesConstraints valid base.constraintMeaning :=
    Model.realizesConstraints_of_steady family steady baseMember
  have inForce : node.penalty store = node.penaltyIn penalties := by
    rw [penalty, (steady.ready holds).inForce, penaltyIn]
  have fits : (node.penaltyIn penalties).Fits base.header.ncon := (steady.ready holds).fits member
  have lengthShift := Tensor.length_entries_of_shape fits.shiftShape
  have lengthShifted :
      (Vec.add values (node.penaltyIn penalties).shift.entries).length = base.header.ncon := by
    simp [length, lengthShift]
  apply AnswersAt.get_bind
  rw [inForce, penaltyMeaning]
  refine modifyScratch_bind steady member holds (fun scratch kept => ?_) fun later holds => ?_
  · exact { kept with residual := lengthShifted }
  -- The projection overwrites a buffer of the right length, so its content does not matter.
  have room : (node.scratch base.oracle later).multipliers.length =
      base.constraintMeaning.ncon := by
    simpa using ((steady.ready holds).scratch member).multipliers
  have answers := realizes.project
    (.vector (Vec.add values (node.penaltyIn penalties).shift.entries))
    (some (.vector (node.scratch base.oracle later).multipliers)) later holds
  rw [ConstraintMeaning.projectAt_some room] at answers
  refine .get_bind ((answers.mono (fun _ => trivial) fun _ fills => fills).bind ?_)
  intro projected afterwards fills holds
  have lengthProjected : projected.length = base.header.ncon := by simpa using fills.length
  have lengthEstimate := length_estimate fits length lengthProjected
  refine modifyScratch_bind steady member holds (fun scratch kept => ?_) fun last holds => ?_
  · exact { kept with
      residual := by simp [lengthShifted, lengthProjected]
      multipliers := lengthEstimate }
  · exact .pure holds lengthEstimate

theorem answers_pullback (family : Family models)
    (steady : Store.Steady models penalties valid) (member : .augmentedLagrangian node base ∈ models)
    {x estimate : List α} :
    Answers valid certain (node.pullback base.oracle x estimate)
      (·.length = base.header.nvar)
      (base.constraintMeaning.adjointProductAt (.vector x) (.vector estimate) none) := by
  intro store holds
  have baseMember : base ∈ models := family.bases member rfl
  have realizes : base.oracle.RealizesConstraints valid base.constraintMeaning :=
    Model.realizesConstraints_of_steady family steady baseMember
  have room : (node.scratch base.oracle store).pullback.length = base.constraintMeaning.nvar := by
    simpa using ((steady.ready holds).scratch member).pullback
  have answers := realizes.adjointProduct (.vector x) (.vector estimate)
    (some (.vector (node.scratch base.oracle store).pullback)) store holds
  rw [ConstraintMeaning.adjointProductAt_some room] at answers
  rw [← bind_pure (base.constraintMeaning.adjointProductAt (.vector x) (.vector estimate) none)]
  refine .get_bind ((answers.mono (fun _ => trivial) fun _ fills => fills).bind ?_)
  intro content later fills holds
  have length : content.length = base.header.nvar := by simpa using fills.length
  refine modifyScratch_bind steady member holds (fun scratch fits => ?_) fun last holds => ?_
  · exact { fits with pullback := length }
  · exact .pure holds length

/-! ### Evaluations -/

/-- Besides the answers of the base, the Lagrangian and its gradient depend on the point and on the
penalty data in force only. -/
theorem realizesSmooth (family : Family models) (steady : Store.Steady models penalties valid)
    (member : .augmentedLagrangian node base ∈ models) {meaning : SmoothMeaning α} {x : List α}
    (realizes : base.oracle.RealizesSmoothAt valid certain base.constraintMeaning meaning
      (.vector x)) :
    (node.hooks base.oracle).RealizesSmoothAt valid certain
      (node.smoothMeaning (node.penaltyIn penalties) base.constraintMeaning meaning) x := by
  rcases family.regular member with ⟨nvar, _, _⟩
  have sameNvar : meaning.nvar = base.header.nvar := by simpa using realizes.nvar
  exact {
    objective := by
      intro store holds
      have room : (node.scratch base.oracle store).constraints.length =
          base.constraintMeaning.ncon := by
        simpa using ((steady.ready holds).scratch member).constraints
      have answers := realizes.objectiveConstraints
        (some (.vector (node.scratch base.oracle store).constraints)) store holds
      rw [SmoothMeaning.objectiveConstraintsAt_some room] at answers
      refine .get_bind (answers.bind ?_)
      rintro ⟨value, values⟩ later fills holds
      have length : values.length = base.header.ncon := by simpa using fills.length
      refine modifyScratch_bind steady member holds (fun scratch fits => ?_) fun last holds => ?_
      · exact { fits with constraints := length }
      apply (answers_penaltyTerm family steady member length last holds).bind
      rintro ⟨term, estimate⟩ afterwards _ holds
      exact .pure holds trivial
    gradient := by
      intro out hout store holds
      change out.length = node.header.nvar at hout
      have room : out.length = meaning.nvar := by rw [hout, nvar, sameNvar]
      apply (answers_constraintValues family steady member store holds).bind
      intro values later length holds
      apply (answers_penaltyTerm family steady member length later holds).bind
      rintro ⟨term, estimate⟩ afterwards _ holds
      rw [← SmoothMeaning.gradientAt_some room]
      apply (realizes.gradient _ afterwards holds).bind
      intro slope next fills holds
      apply (answers_pullback family steady member next holds).bind
      intro correction last lengthCorrection holds
      have lengthSlope : slope.length = base.header.nvar := fills.length.trans sameNvar
      exact .pure holds (by simp [smoothMeaning, lengthSlope, lengthCorrection, nvar])
    objectiveGradient := by
      intro out hout store holds
      change out.length = node.header.nvar at hout
      have room : out.length = meaning.nvar := by rw [hout, nvar, sameNvar]
      apply (answers_constraintValues family steady member store holds).bind
      intro values later length holds
      apply (answers_penaltyTerm family steady member length later holds).bind
      rintro ⟨term, estimate⟩ afterwards _ holds
      rw [← SmoothMeaning.objectiveGradientAt_some room]
      apply (realizes.objectiveGradient _ afterwards holds).bind
      rintro ⟨value, slope⟩ next fills holds
      apply (answers_pullback family steady member next holds).bind
      intro correction last lengthCorrection holds
      have lengthSlope : slope.length = base.header.nvar := fills.length.trans sameNvar
      exact .pure holds (by simp [smoothMeaning, lengthSlope, lengthCorrection, nvar]) }

/-- Ask for the multiplier estimate at `x`. -/
def estimateAt (node : AugmentedLagrangian α) (penalty : Penalty α) (base : ConstraintMeaning α)
    (x : Tensor α) (out : Option (Tensor α)) : Except (Error α) (List α) := do
  checkVectors node.header.nvar [x.shape]
  checkVectors base.ncon [(Oracle.buffer base.ncon out).shape]
  estimateMeaning penalty base x.entries

/-- The multiplier estimate asks the base for constraint values only, so it never depends on what was
asked before. -/
theorem answers_multiplierEstimate (family : Family models)
    (member : .augmentedLagrangian node base ∈ models) (x : Tensor α) (out : Option (Tensor α)) :
    Answers (Store.Ready models penalties) True (node.multiplierEstimate base.oracle x out)
      (·.length = base.header.ncon)
      (node.estimateAt (node.penaltyIn penalties) base.constraintMeaning x out) := by
  intro store ready
  have steady : Store.Steady models penalties (Store.Ready models penalties) :=
    Store.Ready.steady family
  simp only [multiplierEstimate, estimateAt, Model.oracle_header, Model.ncon_constraintMeaning]
  apply AnswersAt.check_bind ready
  intro _
  apply AnswersAt.check_bind ready
  intro _
  apply (answers_constraintValues family steady member store ready).bind
  intro values later length ready
  apply (answers_penaltyTerm family steady member length later ready).bind
  rintro ⟨term, estimate⟩ afterwards lengthEstimate ready
  exact .pure ready lengthEstimate

end CompositeModels.AugmentedLagrangian
