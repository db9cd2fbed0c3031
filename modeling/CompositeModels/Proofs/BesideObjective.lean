/-
Module: CompositeModels.Proofs.BesideObjective
Purpose: Problems that differ in their objectives only. They make the same computation of everything
  else, so a feasibility problem cannot tell them apart. Two feasibility problems with the same data, one
  on each of them, keep residuals of their own. They answer alike where these belong to the same point,
  and everywhere over a function of the point.
Main exports: Oracle.SameBesideObjective, Feasibility.oracle_congr, Feasibility.ask_congr,
  Feasibility.SameProblem, Session.FeasiblyAlike, Session.Sound.recall_eq,
  Session.Sound.feasiblyAlike
-/
import CompositeModels.Proofs.Session
import CompositeModels.Proofs.Realization.History

namespace CompositeModels

variable {α : Type}

/-- Packing two outcomes that are the same. -/
theorem Eval.outcome_pack_congr {β γ : Type} {first second : Eval α β} {pack : β → γ}
    {store : Store α} (same : first.outcome store = second.outcome store) :
    (do return pack (← first) : Eval α γ).outcome store =
      (do return pack (← second) : Eval α γ).outcome store := by
  have packed : ∀ program : Eval α β, (do return pack (← program) : Eval α γ).outcome store =
      (program.outcome store).map pack := by
    intro program
    cases run : program.run store with
    | ok value later =>
        rw [outcome_of_run_ok run, outcome, run_bind_of_ok run]
        rfl
    | error cause later =>
        rw [outcome_of_run_error run, outcome, run_bind_of_error run]
        rfl
  rw [packed, packed, same]

/-! ### Oracles with the same meanings -/

section Scalars

variable [Scalar α]

/-- Oracles that answer as the same meanings say answer every call alike. The meaning of the objective may
depend on the point. -/
theorem Oracle.outcome_call_eq {first second : Oracle α} {store : Store α} {valid : Store α → Prop}
    {restriction : ConstraintMeaning α} {term : TermMeaning α} (holds : valid store)
    (constraints : first.RealizesConstraints valid restriction)
    (constraints' : second.RealizesConstraints valid restriction)
    (terms : first.RealizesTerm valid term) (terms' : second.RealizesTerm valid term)
    (smooth : ∀ x, ∃ (here there : Store α → Prop) (meaning : SmoothMeaning α), here store ∧
      there store ∧ first.RealizesSmoothAt here True restriction meaning x ∧
      second.RealizesSmoothAt there True restriction meaning x) (call : Call α) :
    (first.call call).outcome store = (second.call call).outcome store := by
  cases call with
  | objective x =>
      obtain ⟨_, _, _, here, there, realizes, realizes'⟩ := smooth x
      apply Eval.outcome_pack_congr
      rw [(realizes.objective _ here).agrees trivial, (realizes'.objective _ there).agrees trivial]
  | gradient x out =>
      obtain ⟨_, _, _, here, there, realizes, realizes'⟩ := smooth x
      apply Eval.outcome_pack_congr
      rw [(realizes.gradient out _ here).agrees trivial,
        (realizes'.gradient out _ there).agrees trivial]
  | objectiveGradient x out =>
      obtain ⟨_, _, _, here, there, realizes, realizes'⟩ := smooth x
      apply Eval.outcome_pack_congr
      rw [(realizes.objectiveGradient out _ here).agrees trivial,
        (realizes'.objectiveGradient out _ there).agrees trivial]
  | objectiveConstraints x out =>
      obtain ⟨_, _, _, here, there, realizes, realizes'⟩ := smooth x
      apply Eval.outcome_pack_congr
      rw [(realizes.objectiveConstraints out _ here).agrees trivial,
        (realizes'.objectiveConstraints out _ there).agrees trivial]
  | constraints x out =>
      apply Eval.outcome_pack_congr
      rw [(constraints.constraints x out _ holds).agrees trivial,
        (constraints'.constraints x out _ holds).agrees trivial]
  | jacobianProduct x v out =>
      apply Eval.outcome_pack_congr
      rw [(constraints.jacobianProduct x v out _ holds).agrees trivial,
        (constraints'.jacobianProduct x v out _ holds).agrees trivial]
  | adjointProduct x v out =>
      apply Eval.outcome_pack_congr
      rw [(constraints.adjointProduct x v out _ holds).agrees trivial,
        (constraints'.adjointProduct x v out _ holds).agrees trivial]
  | project v out =>
      apply Eval.outcome_pack_congr
      rw [(constraints.project v out _ holds).agrees trivial,
        (constraints'.project v out _ holds).agrees trivial]
  | distance v =>
      apply Eval.outcome_pack_congr
      rw [(constraints.distance v _ holds).agrees trivial,
        (constraints'.distance v _ holds).agrees trivial]
  | proximal x step out =>
      apply Eval.outcome_pack_congr
      rw [(terms.proximal x step out _ holds).agrees trivial,
        (terms'.proximal x step out _ holds).agrees trivial]
  | proximalWithValue x step out =>
      apply Eval.outcome_pack_congr
      rw [(terms.proximalWithValue x step out _ holds).agrees trivial,
        (terms'.proximalWithValue x step out _ holds).agrees trivial]

/-! ### The same problem but for the objective -/

/-- Oracles with the same dimensions that make the same computation of whatever does not involve the
objective. -/
structure Oracle.SameBesideObjective (oracle base : Oracle α) : Prop where
  nvar : oracle.header.nvar = base.header.nvar
  ncon : oracle.header.ncon = base.header.ncon
  constraints : ∀ x out, oracle.constraints x out = base.constraints x out
  jacobianProduct : ∀ x v out, oracle.jacobianProduct x v out = base.jacobianProduct x v out
  adjointProduct : ∀ x v out, oracle.adjointProduct x v out = base.adjointProduct x v out
  project : ∀ v out, oracle.project v out = base.project v out
  distance : ∀ v, oracle.distance v = base.distance v
  proximal : ∀ x step out, oracle.proximal x step out = base.proximal x step out
  proximalWithValue : ∀ x step out,
    oracle.proximalWithValue x step out = base.proximalWithValue x step out

namespace Oracle.SameBesideObjective

theorem refl (oracle : Oracle α) : oracle.SameBesideObjective oracle where
  nvar := rfl
  ncon := rfl
  constraints _ _ := rfl
  jacobianProduct _ _ _ := rfl
  adjointProduct _ _ _ := rfl
  project _ _ := rfl
  distance _ := rfl
  proximal _ _ _ := rfl
  proximalWithValue _ _ _ := rfl

theorem trans {first second third : Oracle α} (left : first.SameBesideObjective second)
    (right : second.SameBesideObjective third) : first.SameBesideObjective third where
  nvar := left.nvar.trans right.nvar
  ncon := left.ncon.trans right.ncon
  constraints x out := (left.constraints x out).trans (right.constraints x out)
  jacobianProduct x v out := (left.jacobianProduct x v out).trans (right.jacobianProduct x v out)
  adjointProduct x v out := (left.adjointProduct x v out).trans (right.adjointProduct x v out)
  project v out := (left.project v out).trans (right.project v out)
  distance v := (left.distance v).trans (right.distance v)
  proximal x step out := (left.proximal x step out).trans (right.proximal x step out)
  proximalWithValue x step out :=
    (left.proximalWithValue x step out).trans (right.proximalWithValue x step out)

end Oracle.SameBesideObjective

namespace Feasibility

variable {node : Feasibility α} {oracle base : Oracle α}

theorem residual_congr (same : oracle.SameBesideObjective base) (x : List α) :
    node.residual oracle x = node.residual base x := by
  have cache : node.cache oracle = node.cache base := by
    funext store
    rw [Feasibility.cache, Feasibility.cache, same.ncon]
  simp only [residual, modifyCache, cache, same.constraints, same.project]

theorem infeasibilityGradient_congr (same : oracle.SameBesideObjective base) (x : Tensor α)
    (out : Option (Tensor α)) :
    node.infeasibilityGradient oracle x out = node.infeasibilityGradient base x out := by
  simp only [infeasibilityGradient, residual_congr same, same.adjointProduct]

/-- A feasibility problem asks its base for nothing that involves the objective. -/
theorem oracle_congr (same : oracle.SameBesideObjective base) :
    node.oracle oracle = node.oracle base := by
  have objective : node.objective oracle = node.objective base := by
    funext x
    simp only [Feasibility.objective, infeasibility, residual_congr same]
  have gradient : node.gradient oracle = node.gradient base := by
    funext x out
    simp only [Feasibility.gradient, infeasibilityGradient_congr same]
  have proximal : node.proximal oracle = node.proximal base := by
    funext x step out
    simp only [Feasibility.proximal, same.proximal]
  have proximalWithValue : node.proximalWithValue oracle = node.proximalWithValue base := by
    funext x step out
    simp only [Feasibility.proximalWithValue, same.proximalWithValue]
  simp only [Feasibility.oracle, hooks, objective, gradient, proximal, proximalWithValue]

theorem ask_congr (same : oracle.SameBesideObjective base) (question : Question α) :
    node.ask oracle question = node.ask base question := by
  cases question with
  | infeasibility x => simp only [ask, infeasibility, residual_congr same]
  | infeasibilityGradient x out => simp only [ask, infeasibilityGradient_congr same]
  | violation x => simp only [ask, violation, residual_congr same]
  | proximalDistance x => rfl
  | unscaledDistance x => rfl

end Feasibility

end Scalars

/-! ### Two feasibility problems -/

variable [Elementary α]

namespace Feasibility

/-- Feasibility problems with the same loss, the same proximal term and the same choice about the term of
the base. Their headers and serial numbers may differ. -/
structure SameProblem (first second : Feasibility α) : Prop where
  loss : first.loss = second.loss
  huber : first.huber = second.huber
  weight : first.weight = second.weight
  withIndicator : first.withIndicator = second.withIndicator
  center : first.center = second.center
  scaling : first.scaling = second.scaling

namespace SameProblem

variable {first second : Feasibility α} (same : first.SameProblem second)
  (nvar : first.header.nvar = second.header.nvar)
include same

theorem withProximalTerm_eq : first.withProximalTerm = second.withProximalTerm := by
  rw [withProximalTerm, withProximalTerm, same.weight, same.scaling]

include nvar

theorem smoothMeaning_eq (meaning : ConstraintMeaning α) :
    first.smoothMeaning meaning = second.smoothMeaning meaning := by
  have objective : first.objectiveMeaning meaning = second.objectiveMeaning meaning := by
    funext x
    simp only [objectiveMeaning, infeasibilityMeaning, proximalDistanceMeaning,
      same.withProximalTerm_eq, same.loss, same.huber, same.weight, same.center, same.scaling]
  have gradient : first.gradientMeaning meaning = second.gradientMeaning meaning := by
    funext x
    simp only [gradientMeaning, infeasibilityGradientMeaning, same.withProximalTerm_eq, same.loss,
      same.huber, same.weight, same.center, same.scaling, nvar]
  simp only [smoothMeaning, objective, gradient, nvar]

theorem reply_eq (meaning : ConstraintMeaning α) (question : Question α) :
    first.reply meaning question = second.reply meaning question := by
  cases question with
  | infeasibility x =>
      simp only [reply, infeasibilityAt, infeasibilityMeaning, same.loss, same.huber, nvar]
  | infeasibilityGradient x out =>
      simp only [reply, infeasibilityGradientAt, infeasibilityGradientMeaning, same.loss, same.huber,
        nvar]
  | violation x => simp only [reply, violationAt, nvar]
  | proximalDistance x =>
      simp only [reply, proximalDistanceAt, proximalDistanceMeaning, same.center, same.scaling, nvar]
  | unscaledDistance x => simp only [reply, unscaledDistanceAt, same.center, nvar]

theorem termMeaning_eq {base other : TermMeaning α}
    (proximal : base.proximalAt = other.proximalAt)
    (proximalWithValue : base.proximalWithValueAt = other.proximalWithValueAt) :
    first.termMeaning base = second.termMeaning other := by
  simp only [termMeaning, same.withIndicator, proximal, proximalWithValue, nvar]

end SameProblem

end Feasibility

/-- Feasibility problems cannot tell `model` from `base`. One and the same problem makes the same
computations over both. Two problems with the same data, one over each, return the same or fail for the
same cause, unless they keep residuals that belong to different points and are not functions of the
point. -/
structure Session.FeasiblyAlike (session : Session α) (model base : Model α) : Prop where
  oracle : ∀ node : Feasibility α, node.oracle model.oracle = node.oracle base.oracle
  ask : ∀ (node : Feasibility α) question,
    node.ask model.oracle question = node.ask base.oracle question
  questions : ∀ {first second : Feasibility α}, .feasibility first model ∈ session.models →
    .feasibility second base ∈ session.models → first.SameProblem second →
    (base.PointFunction ∨ (first.cache model.oracle session.store).point =
      (second.cache base.oracle session.store).point) →
    ∀ question, (first.ask model.oracle question).outcome session.store =
      (second.ask base.oracle question).outcome session.store
  calls : ∀ {first second : Feasibility α}, .feasibility first model ∈ session.models →
    .feasibility second base ∈ session.models → first.SameProblem second →
    (base.PointFunction ∨ (first.cache model.oracle session.store).point =
      (second.cache base.oracle session.store).point) →
    ∀ call, ((Model.feasibility first model).oracle.call call).outcome session.store =
      ((Model.feasibility second base).oracle.call call).outcome session.store

namespace Session.Sound

variable {session : Session α} (sound : session.Sound)
include sound

section Agreement

variable {model base : Model α} (known : model ∈ session.models) (baseKnown : base ∈ session.models)
  (same : model.oracle.SameBesideObjective base.oracle)
include known baseKnown same

theorem constraintsAt_eq :
    model.constraintMeaning.constraintsAt = base.constraintMeaning.constraintsAt := by
  funext x out
  rw [← sound.outcome_constraints known, same.constraints, sound.outcome_constraints baseKnown]

theorem projectAt_eq : model.constraintMeaning.projectAt = base.constraintMeaning.projectAt := by
  funext v out
  rw [← sound.outcome_project known, same.project, sound.outcome_project baseKnown]

theorem adjointProductAt_eq :
    model.constraintMeaning.adjointProductAt = base.constraintMeaning.adjointProductAt := by
  funext x v out
  rw [← sound.outcome_adjointProduct known, same.adjointProduct,
    sound.outcome_adjointProduct baseKnown]

theorem proximalAt_eq : model.termMeaning.proximalAt = base.termMeaning.proximalAt := by
  funext x step out
  rw [← sound.outcome_proximal known, same.proximal, sound.outcome_proximal baseKnown]

theorem proximalWithValueAt_eq :
    model.termMeaning.proximalWithValueAt = base.termMeaning.proximalWithValueAt := by
  funext x step out
  rw [← sound.outcome_proximalWithValue known, same.proximalWithValue,
    sound.outcome_proximalWithValue baseKnown]

theorem residualMeaning_eq (x : List α) :
    Feasibility.residualMeaning model.constraintMeaning x =
      Feasibility.residualMeaning base.constraintMeaning x := by
  simp only [Feasibility.residualMeaning, sound.constraintsAt_eq known baseKnown same,
    sound.projectAt_eq known baseKnown same]

theorem pointFunction_of_base (pointFunction : base.PointFunction) : model.PointFunction := by
  intro x x' equal
  rw [sound.constraintsAt_eq known baseKnown same]
  exact pointFunction x x' equal

end Agreement

/-- Feasibility problems have the variables of their bases. -/
theorem nvar_eq {first second : Feasibility α} {model base : Model α}
    (member : .feasibility first model ∈ session.models)
    (baseMember : .feasibility second base ∈ session.models)
    (same : model.oracle.SameBesideObjective base.oracle) :
    first.header.nvar = second.header.nvar := by
  have sameNvar := same.nvar
  rw [Model.oracle_header, Model.oracle_header] at sameNvar
  rw [(sound.family.regular member).1, (sound.family.regular baseMember).1, sameNvar]

/-- Two problems find the same residual at a point if it depends on nothing but the point, or if what they
keep belongs to the same point. -/
theorem recall_eq {first second : Feasibility α} {model base : Model α}
    (member : .feasibility first model ∈ session.models)
    (baseMember : .feasibility second base ∈ session.models)
    (same : model.oracle.SameBesideObjective base.oracle)
    (alike : base.PointFunction ∨ (first.cache model.oracle session.store).point =
      (second.cache base.oracle session.store).point) (x : List α) :
    (first.cache model.oracle session.store).recall model.constraintMeaning x =
      (second.cache base.oracle session.store).recall base.constraintMeaning x := by
  have known : model ∈ session.models := sound.family.bases member rfl
  have baseKnown : base ∈ session.models := sound.family.bases baseMember rfl
  have firstSound := sound.ready.cache member
  have secondSound := sound.ready.cache baseMember
  have residuals := sound.residualMeaning_eq known baseKnown same
  rcases alike with pointFunction | kept
  · rw [firstSound.recall_eq (sound.pointFunction_of_base known baseKnown same pointFunction),
      secondSound.recall_eq pointFunction, residuals]
  · unfold ResidualCache.recall
    rw [kept]
    cases held : (second.cache base.oracle session.store).point with
    | none => exact residuals x
    | some point =>
        have there := firstSound.point (kept.trans held)
        rw [residuals, secondSound.point held] at there
        rw [residuals, Except.ok.inj there]

/-- From the store at hand, a feasibility problem that finds the residual of `meaning` at a point answers
questions and evaluations there as `meaning` says. -/
theorem outcome_of_recall {node : Feasibility α} {base : Model α} {x : Tensor α}
    {meaning : ConstraintMeaning α} (member : .feasibility node base ∈ session.models)
    (adjoint : meaning.adjointProductAt = base.constraintMeaning.adjointProductAt)
    (recalled : (node.cache base.oracle session.store).recall base.constraintMeaning x.entries =
      Feasibility.residualMeaning meaning x.entries) :
    (∀ question : Feasibility.Question α, question.point = x →
      (node.ask base.oracle question).outcome session.store = node.reply meaning question) ∧
    ∃ valid : Store α → Prop, valid session.store ∧
      (Model.feasibility node base).oracle.RealizesSmoothAt valid True
        (Model.feasibility node base).constraintMeaning (node.smoothMeaning meaning) x := by
  let valid := Feasibility.Recalls session.models session.store.penalties node base x.entries
    (Feasibility.residualMeaning meaning x.entries)
  have holds : valid session.store := ⟨sound.ready, recalled⟩
  have steady : Store.Steady session.models session.store.penalties valid :=
    Feasibility.Recalls.steady sound.family
  have residual : Eval.Answers valid True (node.residual base.oracle x.entries)
      (·.length = base.header.ncon) (Feasibility.residualMeaning meaning x.entries) :=
    Feasibility.answers_recalled sound.family member
  refine ⟨fun question asked => ?_, valid, holds, ?_⟩
  · have answers := Feasibility.answers_ask_of_residual sound.family steady member adjoint question
      (asked ▸ residual)
    exact (answers _ holds).agrees trivial
  · refine Model.realizesSmooth_oracle sound.family member steady rfl fun hx => ?_
    exact Feasibility.realizesSmooth sound.family steady member hx residual adjoint

/-- Two problems that find the same residual at a point find that of one meaning, which has the transposed
Jacobian of both bases. -/
theorem exists_common_meaning {first second : Feasibility α} {model base : Model α}
    (member : .feasibility first model ∈ session.models)
    (baseMember : .feasibility second base ∈ session.models)
    (same : model.oracle.SameBesideObjective base.oracle)
    (alike : base.PointFunction ∨ (first.cache model.oracle session.store).point =
      (second.cache base.oracle session.store).point) (x : List α) :
    ∃ meaning : ConstraintMeaning α,
      meaning.adjointProductAt = model.constraintMeaning.adjointProductAt ∧
      meaning.adjointProductAt = base.constraintMeaning.adjointProductAt ∧
      (first.cache model.oracle session.store).recall model.constraintMeaning x =
        Feasibility.residualMeaning meaning x ∧
      (second.cache base.oracle session.store).recall base.constraintMeaning x =
        Feasibility.residualMeaning meaning x := by
  have known : model ∈ session.models := sound.family.bases member rfl
  have baseKnown : base ∈ session.models := sound.family.bases baseMember rfl
  have adjoint := sound.adjointProductAt_eq known baseKnown same
  obtain ⟨point, length, recalled⟩ := (sound.ready.cache member).exists_recall_eq x
  rw [← Feasibility.residualMeaning_withValuesAt _ length] at recalled
  exact ⟨model.constraintMeaning.withValuesAt point, rfl, adjoint, recalled,
    (sound.recall_eq member baseMember same alike x).symm.trans recalled⟩

/-- Models that are the same but for their objectives cannot be told apart by feasibility problems. -/
theorem feasiblyAlike {model base : Model α} (same : model.oracle.SameBesideObjective base.oracle) :
    session.FeasiblyAlike model base where
  oracle := fun _ => Feasibility.oracle_congr same
  ask := fun _ => Feasibility.ask_congr same
  questions := by
    intro first second member baseMember problem alike question
    obtain ⟨meaning, adjoint, baseAdjoint, recalled, baseRecalled⟩ :=
      sound.exists_common_meaning member baseMember same alike question.point.entries
    rw [(sound.outcome_of_recall member adjoint recalled).1 question rfl,
      (sound.outcome_of_recall baseMember baseAdjoint baseRecalled).1 question rfl,
      problem.reply_eq (sound.nvar_eq member baseMember same)]
  calls := by
    intro first second member baseMember problem alike
    have known : model ∈ session.models := sound.family.bases member rfl
    have baseKnown : base ∈ session.models := sound.family.bases baseMember rfl
    have nvar := sound.nvar_eq member baseMember same
    have ncon : first.header.ncon = second.header.ncon :=
      (sound.family.regular member).2.1.trans (sound.family.regular baseMember).2.1.symm
    have constraintMeaning : (Model.feasibility first model).constraintMeaning =
        (Model.feasibility second base).constraintMeaning := by
      simp only [Model.constraintMeaning, Unconstrained.constraintMeaning, nvar, ncon]
    have termMeaning : (Model.feasibility first model).termMeaning =
        (Model.feasibility second base).termMeaning :=
      problem.termMeaning_eq nvar (sound.proximalAt_eq known baseKnown same)
        (sound.proximalWithValueAt_eq known baseKnown same)
    apply Oracle.outcome_call_eq sound.ready (Model.realizesConstraints sound.family member)
      (constraintMeaning ▸ Model.realizesConstraints sound.family baseMember)
      (Model.realizesTerm sound.family member)
      (termMeaning ▸ Model.realizesTerm sound.family baseMember)
    intro x
    obtain ⟨meaning, adjoint, baseAdjoint, recalled, baseRecalled⟩ :=
      sound.exists_common_meaning member baseMember same alike x.entries
    obtain ⟨_, valid, holds, realizes⟩ := sound.outcome_of_recall member adjoint recalled
    obtain ⟨_, valid', holds', realizes'⟩ :=
      sound.outcome_of_recall baseMember baseAdjoint baseRecalled
    rw [problem.smoothMeaning_eq nvar] at realizes
    rw [← constraintMeaning] at realizes'
    exact ⟨valid, valid', _, holds, holds', realizes, realizes'⟩

end Session.Sound

end CompositeModels
