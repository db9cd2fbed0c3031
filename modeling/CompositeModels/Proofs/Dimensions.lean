/-
Module: CompositeModels.Proofs.Dimensions
Purpose: Dimensions in every session. Each model has a well-formed header with the dimensions that its
  kind derives from those of its base, and every operation of a packaged stack that is asked with arrays
  of the declared lengths delivers vectors of the declared lengths, whatever was done before.
Main exports: Session.Reachable.wellFormed, Session.Sound.delivers_call, Session.Sound.delivers_ask,
  Session.Sound.delivers_multiplierEstimate, Session.Dimensions, Session.Reachable.dimensions_are_sound
-/
import CompositeModels.Proofs.Delivery
import CompositeModels.Proofs.Refusal

namespace CompositeModels.Session

open Eval (Answers)

variable {α : Type} [Elementary α] {session : Session α} {model : Model α}

/-! ### Headers -/

theorem Reachable.wellFormed (reachable : session.Reachable) :
    ∀ {model}, model ∈ session.models → model.header.WellFormed := by
  induction reachable with
  | start =>
      intro model member
      cases member
  | @step session action _ _ ih =>
      intro model member
      cases action with
      | build construction =>
          rcases session.perform_build_cases construction with same | ⟨new, later, grants, same⟩
          · exact ih (same ▸ member)
          · rw [same] at member
            rcases List.mem_cons.1 member with rfl | old
            · exact grants.wellFormed
            · exact ih old
      | _ => exact ih member

/-! ### Operations -/

namespace Sound

variable (sound : session.Sound)
include sound

/-- What is asked about `f` at one point is answered by something that delivers. -/
theorem exists_smoothMeaning (member : model ∈ session.models) (packaged : model.IsPackaged)
    (x : Tensor α) :
    ∃ (valid : Store α → Prop) (meaning : SmoothMeaning α),
      valid session.store ∧ meaning.nvar = model.header.nvar ∧ meaning.Delivers model.Foresees ∧
        model.oracle.RealizesSmoothAt valid True model.constraintMeaning meaning x := by
  obtain ⟨valid, meaning, holds, _, delivers, realizes⟩ :=
    (Model.passesOn_delivers sound.family sound.ready.fits).exists_meaning sound.family
      sound.ready member x
  exact ⟨valid, meaning, holds, by simpa using realizes.nvar, delivers packaged, realizes⟩

theorem delivers_call (member : model ∈ session.models) (packaged : model.IsPackaged)
    {call : Call α} (fits : ∀ check ∈ call.checks model.header, check.Passes) :
    Delivers model.Foresees (Answer.Fills (call.bufferLength model.header))
      ((model.oracle.call call).outcome session.store) := by
  have constraints : model.constraintMeaning.Delivers model.Foresees :=
    Model.deliversConstraints sound.family member packaged
  have term : model.termMeaning.Delivers model.Foresees :=
    Model.deliversTerm sound.family member packaged
  have others : ∀ cause : Error α, ¬ cause.IsLengthMismatch → model.Foresees cause :=
    fun _ => model.foresees_of_not_mismatch
  have nvarC : model.constraintMeaning.nvar = model.header.nvar := model.nvar_constraintMeaning
  have nconC : model.constraintMeaning.ncon = model.header.ncon := model.ncon_constraintMeaning
  have nvarT : model.termMeaning.nvar = model.header.nvar := model.nvar_termMeaning
  simp only [LengthCheck.Passes] at fits
  cases call with
  | objective x =>
      obtain ⟨valid, meaning, holds, nvar, delivers, realizes⟩ :=
        sound.exists_smoothMeaning member packaged x
      simp only [Call.checks, List.forall_mem_cons, ← nvar] at fits
      have answer : Delivers model.Foresees (fun _ => True)
          ((model.oracle.objective x).outcome session.store) := by
        rw [(realizes.objective _ holds).agrees trivial]
        exact delivers.objectiveAt fits.1.1
      exact answer.outcome_pack fun _ => id
  | gradient x out =>
      obtain ⟨valid, meaning, holds, nvar, delivers, realizes⟩ :=
        sound.exists_smoothMeaning member packaged x
      simp only [Call.checks, List.forall_mem_cons, ← nvar] at fits
      have answer : Delivers model.Foresees (·.length = model.header.nvar)
          ((model.oracle.gradient x out).outcome session.store) := by
        rw [(realizes.gradient out _ holds).agrees trivial, ← nvar]
        exact delivers.gradientAt fits.1.1 fits.1.2.1
      exact answer.outcome_pack fun _ => id
  | objectiveGradient x out =>
      obtain ⟨valid, meaning, holds, nvar, delivers, realizes⟩ :=
        sound.exists_smoothMeaning member packaged x
      simp only [Call.checks, List.forall_mem_cons, ← nvar] at fits
      have answer : Delivers model.Foresees (·.2.length = model.header.nvar)
          ((model.oracle.objectiveGradient x out).outcome session.store) := by
        rw [(realizes.objectiveGradient out _ holds).agrees trivial, ← nvar]
        exact delivers.objectiveGradientAt fits.1.1 fits.1.2.1
      exact answer.outcome_pack fun _ => id
  | constraints x out =>
      simp only [Call.checks, List.forall_mem_cons, ← nvarC, ← nconC] at fits
      have answer : Delivers model.Foresees (·.length = model.header.ncon)
          ((model.oracle.constraints x out).outcome session.store) := by
        rw [sound.outcome_constraints member, ← nconC]
        exact constraints.constraintsAt fits.1.1 fits.2.1.1
      exact answer.outcome_pack fun _ => id
  | objectiveConstraints x out =>
      obtain ⟨valid, meaning, holds, nvar, delivers, realizes⟩ :=
        sound.exists_smoothMeaning member packaged x
      simp only [Call.checks, List.forall_mem_cons, ← nvar, ← nconC] at fits
      have answer : Delivers model.Foresees (·.2.length = model.header.ncon)
          ((model.oracle.objectiveConstraints x out).outcome session.store) := by
        rw [(realizes.objectiveConstraints out _ holds).agrees trivial, ← nconC]
        exact delivers.objectiveConstraintsAt constraints (nvarC.trans nvar.symm) fits.1.1
          fits.2.1.1
      exact answer.outcome_pack fun _ => id
  | jacobianProduct x v out =>
      simp only [Call.checks, List.forall_mem_cons, ← nvarC, ← nconC] at fits
      have answer : Delivers model.Foresees (·.length = model.header.ncon)
          ((model.oracle.jacobianProduct x v out).outcome session.store) := by
        rw [sound.outcome_jacobianProduct member, ← nconC]
        exact constraints.jacobianProductAt fits.1.1 fits.1.2.1 fits.2.1.1
      exact answer.outcome_pack fun _ => id
  | adjointProduct x v out =>
      simp only [Call.checks, List.forall_mem_cons, ← nvarC, ← nconC] at fits
      have answer : Delivers model.Foresees (·.length = model.header.nvar)
          ((model.oracle.adjointProduct x v out).outcome session.store) := by
        rw [sound.outcome_adjointProduct member, ← nvarC]
        exact constraints.adjointProductAt fits.1.1 fits.2.1.1 fits.1.2.1
      exact answer.outcome_pack fun _ => id
  | project v out =>
      simp only [Call.checks, List.forall_mem_cons, ← nconC] at fits
      have answer : Delivers model.Foresees (·.length = model.header.ncon)
          ((model.oracle.project v out).outcome session.store) := by
        rw [sound.outcome_project member, ← nconC]
        exact constraints.projectAt fits.1.1 fits.1.2.1
      exact answer.outcome_pack fun _ => id
  | distance v =>
      simp only [Call.checks, List.forall_mem_cons, ← nconC] at fits
      have answer : Delivers model.Foresees (fun _ => True)
          ((model.oracle.distance v).outcome session.store) := by
        rw [sound.outcome_distance member]
        exact constraints.distanceAt fits.1.1
      exact answer.outcome_pack fun _ => id
  | proximal x step out =>
      simp only [Call.checks, List.forall_mem_cons, ← nvarT] at fits
      have answer : Delivers model.Foresees (·.length = model.header.nvar)
          ((model.oracle.proximal x step out).outcome session.store) := by
        rw [sound.outcome_proximal member, ← nvarT]
        exact term.proximalAt others fits.1.1 fits.1.2.1
      exact answer.outcome_pack fun _ => id
  | proximalWithValue x step out =>
      simp only [Call.checks, List.forall_mem_cons, ← nvarT] at fits
      have answer : Delivers model.Foresees (·.2.length = model.header.nvar)
          ((model.oracle.proximalWithValue x step out).outcome session.store) := by
        rw [sound.outcome_proximalWithValue member, ← nvarT]
        exact term.proximalWithValueAt others fits.1.1 fits.1.2.1
      exact answer.outcome_pack fun _ => id

theorem delivers_ask {node : Feasibility α} {base : Model α}
    (member : .feasibility node base ∈ session.models) (packaged : base.IsPackaged)
    {question : Feasibility.Question α}
    (fits : ∀ check ∈ question.checks node.header, check.Passes) :
    Delivers base.Foresees (Answer.Fills node.header.nvar)
      ((node.ask base.oracle question).outcome session.store) := by
  have others : ∀ cause : Error α, ¬ cause.IsLengthMismatch → base.Foresees cause :=
    fun _ => base.foresees_of_not_mismatch
  have baseMember : base ∈ session.models := sound.family.bases member rfl
  have sameNvar : node.header.nvar = base.constraintMeaning.nvar := by
    obtain ⟨nvar, _⟩ := sound.family.regular member
    simpa using nvar
  -- The residual that is found is that of some point, and its projection is checked all the same.
  have found : ∀ {x : Tensor α}, x.shape = [node.header.nvar] →
      ∃ (valid : Store α → Prop) (restriction : ConstraintMeaning α), valid session.store ∧
        Store.Steady session.models session.store.penalties valid ∧
        restriction.Delivers base.Foresees ∧
        restriction.nvar = base.constraintMeaning.nvar ∧
        restriction.adjointProductAt = base.constraintMeaning.adjointProductAt ∧
        Answers valid True (node.residual base.oracle x.entries) (·.length = base.header.ncon)
          (Feasibility.residualMeaning restriction x.entries) := by
    intro x hx
    obtain ⟨valid, point, holds, steady, length, residual⟩ :=
      Feasibility.exists_recalled sound.family sound.ready member x.entries
    have lengthPoint : point.length = base.constraintMeaning.nvar :=
      length.trans ((Tensor.length_entries_of_shape hx).trans sameNvar)
    exact ⟨valid, base.constraintMeaning.withValuesAt point, holds, steady,
      (Model.deliversConstraints sound.family baseMember packaged).withValuesAt lengthPoint, rfl,
      rfl, residual⟩
  simp only [LengthCheck.Passes] at fits
  cases question with
  | infeasibility x =>
      simp only [Feasibility.Question.checks, List.forall_mem_cons] at fits
      obtain ⟨valid, restriction, holds, _, restricts, nvar, _, residual⟩ := found fits.1.1
      have answer : Delivers base.Foresees (fun _ => True)
          ((node.infeasibility base.oracle x).outcome session.store) := by
        rw [(Feasibility.answers_infeasibility residual _ holds).agrees trivial]
        refine .check_bind (by simpa using fits.1.1)
          (Feasibility.delivers_infeasibilityMeaning restricts ?_)
        rw [Tensor.length_entries_of_shape fits.1.1, sameNvar, nvar]
      exact answer.outcome_pack fun _ => id
  | infeasibilityGradient x out =>
      simp only [Feasibility.Question.checks, List.forall_mem_cons] at fits
      obtain ⟨valid, restriction, holds, steady, restricts, nvar, adjoint, residual⟩ :=
        found fits.1.1
      have answer : Delivers base.Foresees (·.length = node.header.nvar)
          ((node.infeasibilityGradient base.oracle x out).outcome session.store) := by
        rw [(Feasibility.answers_infeasibilityGradient sound.family steady member residual adjoint
          out _ holds).agrees trivial]
        exact .check_bind (by simpa using ⟨fits.1.1, fits.1.2.1⟩)
          (Feasibility.delivers_infeasibilityGradientMeaning restricts others
            (sameNvar.trans nvar.symm) (Tensor.length_entries_of_shape fits.1.1))
      exact answer.outcome_pack fun _ => id
  | violation x =>
      simp only [Feasibility.Question.checks, List.forall_mem_cons] at fits
      obtain ⟨valid, restriction, holds, _, restricts, nvar, _, residual⟩ := found fits.1.1
      have answer : Delivers base.Foresees (fun _ => True)
          ((node.violation base.oracle x).outcome session.store) := by
        rw [(Feasibility.answers_violation residual _ holds).agrees trivial]
        refine .check_bind (by simpa using fits.1.1)
          (Feasibility.delivers_violationMeaning restricts ?_)
        rw [Tensor.length_entries_of_shape fits.1.1, sameNvar, nvar]
      exact answer.outcome_pack fun _ => id
  | proximalDistance x =>
      simp only [Feasibility.Question.checks, List.forall_mem_cons] at fits
      have answers : Answers (Store.Ready session.models session.store.penalties) True
          (node.proximalDistance x) (fun _ => True) (node.proximalDistanceAt x) :=
        Feasibility.answers_proximalDistance x
      have answer : Delivers base.Foresees (fun _ => True)
          ((node.proximalDistance x).outcome session.store) := by
        rw [(answers _ sound.ready).agrees trivial]
        exact .check_bind (by simpa using fits.1.1) (.ok trivial)
      exact answer.outcome_pack fun _ => id
  | unscaledDistance x =>
      simp only [Feasibility.Question.checks, List.forall_mem_cons] at fits
      have answers : Answers (Store.Ready session.models session.store.penalties) True
          (node.unscaledDistance x) (fun _ => True) (node.unscaledDistanceAt x) :=
        Feasibility.answers_unscaledDistance x
      have answer : Delivers base.Foresees (fun _ => True)
          ((node.unscaledDistance x).outcome session.store) := by
        rw [(answers _ sound.ready).agrees trivial]
        exact .check_bind (by simpa using fits.1.1) (.ok trivial)
      exact answer.outcome_pack fun _ => id

theorem delivers_multiplierEstimate {node : AugmentedLagrangian α} {base : Model α}
    (member : .augmentedLagrangian node base ∈ session.models) (packaged : base.IsPackaged)
    {x : Tensor α} {out : Option (Tensor α)}
    (fits : ∀ check ∈ AugmentedLagrangian.estimateChecks node.header base.header x out,
      check.Passes) :
    Delivers base.Foresees (·.length = base.header.ncon)
      ((node.multiplierEstimate base.oracle x out).outcome session.store) := by
  have nconEq : base.constraintMeaning.ncon = base.header.ncon := base.ncon_constraintMeaning
  obtain ⟨nvar, _⟩ := sound.family.regular member
  have restricts : base.constraintMeaning.Delivers base.Foresees :=
    Model.deliversConstraints sound.family (sound.family.bases member rfl) packaged
  simp only [LengthCheck.Passes, AugmentedLagrangian.estimateChecks, List.forall_mem_cons] at fits
  have length : x.entries.length = base.constraintMeaning.nvar := by
    rw [Tensor.length_entries_of_shape fits.1.1, nvar, base.nvar_constraintMeaning]
  rw [sound.outcome_multiplierEstimate member, ← nconEq]
  rw [← nconEq] at fits
  refine .check_bind (by simpa using fits.1.1) (.check_bind (by simpa using fits.2.1.1) ?_)
  refine AugmentedLagrangian.delivers_estimateMeaning restricts ?_ length
  rw [nconEq]
  exact sound.ready.fits member

end Sound

/-! ### Every session -/

/-- Headers, operations and constructions of a session respect the dimensions. -/
structure Dimensions (session : Session α) : Prop where
  /-- There is a variable, and the guesses have the declared lengths. -/
  wellFormed : ∀ {model}, model ∈ session.models → model.header.WellFormed
  slack : ∀ {node base}, .slack node base ∈ session.models →
    node.header.nvar = base.header.nvar + base.header.ncon ∧ node.header.ncon = base.header.ncon
  proximalPoint : ∀ {node base}, .proximalPoint node base ∈ session.models →
    node.header.nvar = base.header.nvar ∧ node.header.ncon = base.header.ncon
  augmentedLagrangian : ∀ {node base}, .augmentedLagrangian node base ∈ session.models →
    node.header.nvar = base.header.nvar ∧ node.header.ncon = 0
  feasibility : ∀ {node base}, .feasibility node base ∈ session.models →
    node.header.nvar = base.header.nvar ∧ node.header.ncon = 0
  /-- With arrays that fit, a vector of the declared length is returned, or the call fails for another
  cause than a length. -/
  calls : ∀ {model}, model ∈ session.models → model.IsPackaged → ∀ {call : Call α},
    (∀ check ∈ call.checks model.header, check.Passes) →
    Delivers model.Foresees (Answer.Fills (call.bufferLength model.header))
      ((model.oracle.call call).outcome session.store)
  questions : ∀ {node base}, .feasibility node base ∈ session.models → base.IsPackaged →
    ∀ {question : Feasibility.Question α},
    (∀ check ∈ question.checks node.header, check.Passes) →
    Delivers base.Foresees (Answer.Fills node.header.nvar)
      ((node.ask base.oracle question).outcome session.store)
  estimates : ∀ {node base}, .augmentedLagrangian node base ∈ session.models → base.IsPackaged →
    ∀ {x out}, (∀ check ∈ AugmentedLagrangian.estimateChecks node.header base.header x out,
      check.Passes) →
    Delivers base.Foresees (·.length = base.header.ncon)
      ((node.multiplierEstimate base.oracle x out).outcome session.store)
  /-- A construction leaves all models as they are, its base among them. -/
  constructions : ∀ construction,
    (session.perform (.build construction)).models = session.models ∨
      ∃ model, model.header.WellFormed ∧ model.base? = construction.base? ∧
        (session.perform (.build construction)).models = model :: session.models

/-- In every session, whatever was built, updated, asked and closed before, the dimensions are respected:
a length mismatch is reported only to those who give an array of another length, or by the backend. -/
theorem Reachable.dimensions_are_sound (reachable : session.Reachable) : session.Dimensions where
  wellFormed := reachable.wellFormed
  slack := fun member => reachable.sound.family.regular member
  proximalPoint := by
    intro node base member
    obtain ⟨nvar, ncon, _⟩ := reachable.sound.family.regular member
    exact ⟨nvar, ncon⟩
  augmentedLagrangian := by
    intro node base member
    obtain ⟨nvar, ncon, _⟩ := reachable.sound.family.regular member
    exact ⟨nvar, ncon⟩
  feasibility := by
    intro node base member
    obtain ⟨nvar, ncon, _⟩ := reachable.sound.family.regular member
    exact ⟨nvar, ncon⟩
  calls := reachable.sound.delivers_call
  questions := reachable.sound.delivers_ask
  estimates := reachable.sound.delivers_multiplierEstimate
  constructions := by
    intro construction
    rcases session.perform_build_cases construction with same | ⟨model, later, grants, same⟩
    · exact .inl (by rw [same])
    · exact .inr ⟨model, grants.wellFormed, grants.base, by rw [same]⟩

/-- A slack variable for each of the two constraints of the box, and a gradient with an entry for each of
the three variables. -/
theorem dimensions_are_sound_box :
    boxSlack.header.nvar = boxLeaf.header.nvar + boxLeaf.header.ncon ∧
      ∃ slope : List ℝ,
        ((Model.slack boxSlack (.backend boxLeaf)).oracle.call
          (.gradient (.vector [5, 0, 1]) none)).outcome boxed.store = .ok (.vector slope) ∧
        slope.length = 3 := by
  have dimensions : boxed.Dimensions := reachable_boxed.dimensions_are_sound
  have fits : ∀ check ∈ (Call.gradient (.vector [5, 0, 1]) none).checks boxSlack.header,
      check.Passes := by
    decide
  have delivers : Delivers _ (Answer.Fills 3) _ :=
    dimensions.calls boxSlack_mem_boxed trivial fits
  exact ⟨(dimensions.slack boxSlack_mem_boxed).1, [1, 0, 0], rfl,
    delivers.good (.vector [1, 0, 0]) rfl⟩

end CompositeModels.Session
