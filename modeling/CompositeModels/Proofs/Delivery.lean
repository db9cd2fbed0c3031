/-
Module: CompositeModels.Proofs.Delivery
Purpose: For vectors of the declared lengths, a stack answers with vectors of the declared lengths or
  fails for a cause that is allowed. Every layer splits, joins and hands on vectors that its base checks
  again, and no such check fails if the data of the layer belong to the dimensions of its base. So a
  length mismatch is reported only if the backend at the leaf reports it.
Main exports: Delivers, Error.IsLengthMismatch, BackendLeaf.Reports, Model.Foresees,
  ConstraintMeaning.Delivers, TermMeaning.Delivers, SmoothMeaning.Delivers, Model.deliversConstraints,
  Model.deliversTerm, Model.passesOn_delivers
-/
import CompositeModels.Proofs.Realization.History
import CompositeModels.Proofs.Realization.Term
import CompositeModels.Proofs.Transpose

namespace CompositeModels

variable {α β γ : Type}

/-! ### Results and failures -/

/-- The value is good if there is one, and the cause is allowed if there is none. -/
structure Delivers (allowed : Error α → Prop) (good : β → Prop) (answer : Except (Error α) β) :
    Prop where
  good : ∀ value, answer = .ok value → good value
  allowed : ∀ cause, answer = .error cause → allowed cause

/-- An argument is not a vector of the expected length. -/
def Error.IsLengthMismatch : Error α → Prop
  | .lengthMismatch .. => True
  | _ => False

namespace Delivers

variable {allowed : Error α → Prop} {good : β → Prop}

theorem ok {value : β} (isGood : good value) : Delivers allowed good (.ok value) where
  good := by
    intro other same
    cases same
    exact isGood
  allowed := by
    intro cause same
    cases same

theorem error {cause : Error α} (isAllowed : allowed cause) :
    Delivers allowed good (.error cause : Except (Error α) β) where
  good := by
    intro value same
    cases same
  allowed := by
    intro other same
    cases same
    exact isAllowed

theorem bind {good' : γ → Prop} {answer : Except (Error α) β} {next : β → Except (Error α) γ}
    (first : Delivers allowed good answer)
    (rest : ∀ value, good value → Delivers allowed good' (next value)) :
    Delivers allowed good' (answer >>= next) := by
  cases answer with
  | ok value => exact rest value (first.good value rfl)
  | error cause => exact error (first.allowed cause rfl)

theorem map {good' : γ → Prop} {answer : Except (Error α) β} {pack : β → γ}
    (delivers : Delivers allowed good answer) (packs : ∀ value, good value → good' (pack value)) :
    Delivers allowed good' (do return pack (← answer)) :=
  delivers.bind fun value isGood => ok (packs value isGood)

theorem mono {good' : β → Prop} {answer : Except (Error α) β} (delivers : Delivers allowed good answer)
    (weaker : ∀ value, good value → good' value) : Delivers allowed good' answer where
  good := fun value same => weaker value (delivers.good value same)
  allowed := delivers.allowed

/-- A check of arrays that fit is passed. -/
theorem check_bind {n : Nat} {shapes : List Shape} {next : Unit → Except (Error α) β}
    (fits : ∀ shape ∈ shapes, shape = [n]) (rest : Delivers allowed good (next ())) :
    Delivers allowed good (checkVectors n shapes >>= next) := by
  rw [checkVectors_eq_ok_iff.2 fits]
  exact rest

/-- Packing what a computation gives packs its outcome. -/
theorem outcome_pack {program : Eval α β} {store : Store α} {good' : γ → Prop} {pack : β → γ}
    (delivers : Delivers allowed good (program.outcome store))
    (packs : ∀ value, good value → good' (pack value)) :
    Delivers allowed good' (Eval.outcome (do return pack (← program)) store) := by
  cases run : program.run store with
  | ok value later =>
      rw [Eval.outcome_of_run_ok run] at delivers
      rw [Eval.outcome, run_bind_of_ok run]
      exact ok (packs value (delivers.good value rfl))
  | error cause later =>
      rw [Eval.outcome_of_run_error run] at delivers
      rw [Eval.outcome, run_bind_of_error run]
      exact error (delivers.allowed cause rfl)

end Delivers

/-! ### Causes -/

/-- The backend of the leaf fails for this cause in some evaluation of vectors of the declared lengths. -/
inductive BackendLeaf.Reports (leaf : BackendLeaf α) (cause : Error α) : Prop where
  | objective {x : List α} (hx : x.length = leaf.header.nvar)
      (failed : leaf.backend.objective x = .error cause)
  | gradient {x : List α} (hx : x.length = leaf.header.nvar)
      (failed : leaf.backend.gradient x = .error cause)
  | constraints {x : List α} (hx : x.length = leaf.header.nvar)
      (failed : leaf.backend.constraints x = .error cause)
  | jacobianProduct {x v : List α} (hx : x.length = leaf.header.nvar)
      (hv : v.length = leaf.header.nvar) (failed : leaf.backend.jacobianProduct x v = .error cause)
  | adjointProduct {x v : List α} (hx : x.length = leaf.header.nvar)
      (hv : v.length = leaf.header.ncon) (failed : leaf.backend.adjointProduct x v = .error cause)

/-- A length mismatch is foreseen only where the backend at the leaf reports it. Any other cause may be. -/
def Model.Foresees (model : Model α) (cause : Error α) : Prop :=
  cause.IsLengthMismatch → ∃ leaf, model.leaf = .backend leaf ∧ leaf.Reports cause

theorem Model.foresees_of_not_mismatch (model : Model α) {cause : Error α}
    (other : ¬ cause.IsLengthMismatch) : model.Foresees cause :=
  fun mismatch => absurd mismatch other

theorem BackendLeaf.foresees (leaf : BackendLeaf α) {cause : Error α}
    (reports : leaf.Reports cause) : (Model.backend leaf).Foresees cause :=
  fun _ => ⟨leaf, rfl, reports⟩

/-! ### Answers about `c` and `S` -/

/-- Vectors of the declared lengths are answered with vectors of the declared lengths. -/
structure ConstraintMeaning.Delivers (allowed : Error α → Prop) (meaning : ConstraintMeaning α) :
    Prop where
  constraints : ∀ {x}, x.length = meaning.nvar →
    CompositeModels.Delivers allowed (·.length = meaning.ncon) (meaning.constraints x)
  jacobianProduct : ∀ {x v}, x.length = meaning.nvar → v.length = meaning.nvar →
    CompositeModels.Delivers allowed (·.length = meaning.ncon) (meaning.jacobianProduct x v)
  adjointProduct : ∀ {x v}, x.length = meaning.nvar → v.length = meaning.ncon →
    CompositeModels.Delivers allowed (·.length = meaning.nvar) (meaning.adjointProduct x v)
  project : ∀ {v}, v.length = meaning.ncon →
    CompositeModels.Delivers allowed (·.length = meaning.ncon) (meaning.project v)
  distance : ∀ {v}, v.length = meaning.ncon →
    CompositeModels.Delivers allowed (fun _ => True) (meaning.distance v)

namespace ConstraintMeaning.Delivers

variable [Scalar α] {allowed : Error α → Prop} {meaning : ConstraintMeaning α}
  (delivers : meaning.Delivers allowed) {x v : Tensor α} {out : Option (Tensor α)}
include delivers

theorem constraintsAt (hx : x.shape = [meaning.nvar])
    (hout : (Oracle.buffer meaning.ncon out).shape = [meaning.ncon]) :
    CompositeModels.Delivers allowed (·.length = meaning.ncon) (meaning.constraintsAt x out) := by
  simp only [ConstraintMeaning.constraintsAt, hx, hout, checkVectors_self, ok_bind]
  split
  · exact delivers.constraints (Tensor.length_entries_of_shape hx)
  · exact .ok (by simp; omega)

theorem jacobianProductAt (hx : x.shape = [meaning.nvar]) (hv : v.shape = [meaning.nvar])
    (hout : (Oracle.buffer meaning.ncon out).shape = [meaning.ncon]) :
    CompositeModels.Delivers allowed (·.length = meaning.ncon)
      (meaning.jacobianProductAt x v out) := by
  simp only [ConstraintMeaning.jacobianProductAt, hx, hv, hout, checkVectors_self,
    checkVectors_self_self, ok_bind]
  split
  · exact delivers.jacobianProduct (Tensor.length_entries_of_shape hx)
      (Tensor.length_entries_of_shape hv)
  · exact .ok (by simp; omega)

theorem adjointProductAt (hx : x.shape = [meaning.nvar]) (hv : v.shape = [meaning.ncon])
    (hout : (Oracle.buffer meaning.nvar out).shape = [meaning.nvar]) :
    CompositeModels.Delivers allowed (·.length = meaning.nvar)
      (meaning.adjointProductAt x v out) := by
  simp only [ConstraintMeaning.adjointProductAt, hx, hv, hout, checkVectors_self,
    checkVectors_self_self, ok_bind]
  split
  · exact delivers.adjointProduct (Tensor.length_entries_of_shape hx)
      (Tensor.length_entries_of_shape hv)
  · exact .ok (Vec.length_zeros _)

theorem projectAt (hv : v.shape = [meaning.ncon])
    (hout : (Oracle.buffer meaning.ncon out).shape = [meaning.ncon]) :
    CompositeModels.Delivers allowed (·.length = meaning.ncon) (meaning.projectAt v out) := by
  simp only [ConstraintMeaning.projectAt, hv, hout, checkVectors_self_self, ok_bind]
  split
  · exact delivers.project (Tensor.length_entries_of_shape hv)
  · exact .ok (by simp; omega)

theorem distanceAt (hv : v.shape = [meaning.ncon]) :
    CompositeModels.Delivers allowed (fun _ => True) (meaning.distanceAt v) := by
  simp only [ConstraintMeaning.distanceAt, hv, checkVectors_self, ok_bind]
  split
  · exact delivers.distance (Tensor.length_entries_of_shape hv)
  · exact .ok trivial

omit [Scalar α] in
/-- The values of one point in the place of those of all points are delivered too. -/
theorem withValuesAt {point : List α} (length : point.length = meaning.nvar) :
    (meaning.withValuesAt point).Delivers allowed :=
  { delivers with constraints := fun _ => delivers.constraints length }

end ConstraintMeaning.Delivers

/-- A distance that is computed by projecting is delivered where the projection is. -/
theorem Delivers.distanceToProjection [Scalar α] {allowed : Error α → Prop} {good : List α → Prop}
    {project : List α → Except (Error α) (List α)} {v : List α}
    (delivers : Delivers allowed good (project v)) :
    Delivers allowed (fun _ => True) (ConstraintMeaning.distanceToProjection project v) :=
  delivers.map fun _ _ => trivial

theorem BackendLeaf.deliversConstraints [Scalar α] {leaf : BackendLeaf α}
    (regular : (Model.backend leaf).Regular) :
    leaf.constraintMeaning.Delivers (Model.backend leaf).Foresees := by
  rcases regular with ⟨fills, _, boxLength⟩
  have projects : ∀ {v : List α}, v.length = leaf.header.ncon →
      Delivers (Model.backend leaf).Foresees (·.length = leaf.header.ncon)
        (leaf.constraintMeaning.project v) :=
    fun length => .ok (by simp [Box.clamp, boxLength, length])
  exact {
    constraints := fun hx => ⟨fun _ returned => fills.constraints hx returned,
      fun _ failed => leaf.foresees (.constraints hx failed)⟩
    jacobianProduct := fun hx hv => ⟨fun _ returned => fills.jacobianProduct hx hv returned,
      fun _ failed => leaf.foresees (.jacobianProduct hx hv failed)⟩
    adjointProduct := fun hx hv => ⟨fun _ returned => fills.adjointProduct hx hv returned,
      fun _ failed => leaf.foresees (.adjointProduct hx hv failed)⟩
    project := projects
    distance := fun hv => (projects hv).distanceToProjection }

theorem ExpressionLeaf.deliversConstraints [Elementary α] {leaf : ExpressionLeaf α}
    (ncon : leaf.constraints.length = leaf.header.ncon) :
    leaf.constraintMeaning.Delivers (Model.expression leaf).Foresees where
  constraints := fun _ => .ok (by simp [values, ncon, constraintMeaning])
  jacobianProduct := fun _ _ => .ok (by simp [pushforward, ncon, constraintMeaning])
  adjointProduct := fun hx _ => .ok (by simpa using hx)
  project := fun _ => .error (Model.foresees_of_not_mismatch _ id)
  distance := fun _ => .error (Model.foresees_of_not_mismatch _ id)

section Constraints

variable [Scalar α] {allowed : Error α → Prop} {meaning : ConstraintMeaning α}

/-- The blocks of a point have the dimensions of the base, and so have those of a direction. -/
theorem Slack.deliversConstraints {wrapper : Wrapper α} (delivers : meaning.Delivers allowed)
    (nvar : wrapper.header.nvar = meaning.nvar + meaning.ncon)
    (ncon : wrapper.header.ncon = meaning.ncon) :
    (Slack.constraintMeaning wrapper meaning).Delivers allowed := by
  have block : ∀ {x : List α}, x.length = wrapper.header.nvar →
      (Tensor.vector (x.take meaning.nvar)).shape = [meaning.nvar] := by
    intro x hx
    simp [hx, nvar]
  exact {
    constraints := by
      intro x hx
      change x.length = wrapper.header.nvar at hx
      apply (delivers.constraintsAt (block hx) (Oracle.shape_buffer_none _)).bind
      intro content length
      exact .ok (by simp [constraintMeaning, length, hx, nvar, ncon])
    jacobianProduct := by
      intro x v hx hv
      change v.length = wrapper.header.nvar at hv
      apply (delivers.jacobianProductAt (block hx) (block hv) (Oracle.shape_buffer_none _)).bind
      intro content length
      exact .ok (by simp [constraintMeaning, length, hv, nvar, ncon])
    adjointProduct := by
      intro x v hx hv
      change v.length = wrapper.header.ncon at hv
      have shape : (Tensor.vector v).shape = [meaning.ncon] := by simp [hv, ncon]
      apply (delivers.adjointProductAt (block hx) shape (Oracle.shape_buffer_none _)).bind
      intro content length
      exact .ok (by simp [constraintMeaning, length, hv, nvar, ncon])
    project := fun hv => .ok ((Vec.length_zeroed _).trans hv)
    distance := fun _ => .ok trivial }

theorem ProximalPoint.deliversConstraints {node : ProximalPoint α}
    (delivers : meaning.Delivers allowed) (nvar : node.header.nvar = meaning.nvar)
    (ncon : node.header.ncon = meaning.ncon) :
    (node.constraintMeaning meaning).Delivers allowed := by
  have point : ∀ {x : List α}, x.length = node.header.nvar →
      (Tensor.vector x).shape = [meaning.nvar] := by
    intro x hx
    simp [hx, nvar]
  have values : ∀ {v : List α}, v.length = node.header.ncon →
      (Tensor.vector v).shape = [meaning.ncon] := by
    intro v hv
    simp [hv, ncon]
  have projects : ∀ {v : List α}, v.length = node.header.ncon →
      Delivers allowed (·.length = node.header.ncon) ((node.constraintMeaning meaning).project v) :=
    fun hv => (delivers.projectAt (values hv) (Oracle.shape_buffer_none _)).mono
      fun _ length => length.trans ncon.symm
  exact {
    constraints := fun hx => (delivers.constraintsAt (point hx) (Oracle.shape_buffer_none _)).mono
      fun _ length => length.trans ncon.symm
    jacobianProduct := fun hx hv =>
      (delivers.jacobianProductAt (point hx) (point hv) (Oracle.shape_buffer_none _)).mono
        fun _ length => length.trans ncon.symm
    adjointProduct := fun hx hv =>
      (delivers.adjointProductAt (point hx) (values hv) (Oracle.shape_buffer_none _)).mono
        fun _ length => length.trans nvar.symm
    project := projects
    distance := fun hv => (projects hv).distanceToProjection }

theorem Unconstrained.deliversConstraints {wrapper : Wrapper α} {kind : ModelKind}
    (ncon : wrapper.header.ncon = 0)
    (others : ∀ cause : Error α, ¬ cause.IsLengthMismatch → allowed cause) :
    (Unconstrained.constraintMeaning wrapper kind).Delivers allowed where
  constraints := fun _ => .ok ncon.symm
  jacobianProduct := fun _ _ => .ok ncon.symm
  adjointProduct := fun _ _ => .ok (Vec.length_zeros _)
  project := fun _ => .error (others _ id)
  distance := fun _ => .error (others _ id)

end Constraints

section Models

variable [Elementary α] {models : List (Model α)}

theorem Model.deliversConstraints (family : Family models) {model : Model α}
    (member : model ∈ models) (packaged : model.IsPackaged) :
    model.constraintMeaning.Delivers model.Foresees := by
  induction model with
  | backend leaf => exact leaf.deliversConstraints (family.regular member)
  | expression leaf => exact leaf.deliversConstraints (family.regular member)
  | slack node base ih =>
      obtain ⟨nvar, ncon⟩ := family.regular member
      exact Slack.deliversConstraints (ih (family.bases member rfl) packaged) (by simpa using nvar)
        (by simpa using ncon)
  | proximalPoint node base ih =>
      obtain ⟨nvar, ncon, _⟩ := family.regular member
      exact ProximalPoint.deliversConstraints (ih (family.bases member rfl) packaged)
        (by simpa using nvar) (by simpa using ncon)
  | augmentedLagrangian node base ih =>
      obtain ⟨_, ncon, _⟩ := family.regular member
      exact Unconstrained.deliversConstraints ncon fun _ => Model.foresees_of_not_mismatch _
  | feasibility node base ih =>
      obtain ⟨_, ncon, _⟩ := family.regular member
      exact Unconstrained.deliversConstraints ncon fun _ => Model.foresees_of_not_mismatch _
  | tailored node base ih => exact packaged.elim

end Models

/-! ### Answers about `g` -/

/-- Points of the declared length are answered with points of the declared length. -/
structure TermMeaning.Delivers (allowed : Error α → Prop) (meaning : TermMeaning α) : Prop where
  proximal : ∀ {x step}, x.length = meaning.nvar →
    CompositeModels.Delivers allowed (·.length = meaning.nvar) (meaning.proximal x step)
  proximalWithValue : ∀ {x step}, x.length = meaning.nvar →
    CompositeModels.Delivers allowed (·.2.length = meaning.nvar) (meaning.proximalWithValue x step)

section Term

variable [Scalar α] {allowed : Error α → Prop}
  (others : ∀ cause : Error α, ¬ cause.IsLengthMismatch → allowed cause)
  {meaning : TermMeaning α} {x : Tensor α} {step : α} {out : Option (Tensor α)}
include others

/-- A step that is refused is no length mismatch. -/
theorem TermMeaning.delivers_requirePositiveStep :
    CompositeModels.Delivers allowed (fun _ => True) (requirePositiveStep step) := by
  unfold requirePositiveStep
  split
  · exact .ok trivial
  · exact .error (others _ id)

theorem TermMeaning.Delivers.proximalAt (delivers : meaning.Delivers allowed)
    (hx : x.shape = [meaning.nvar])
    (hout : (Oracle.buffer meaning.nvar out).shape = [meaning.nvar]) :
    CompositeModels.Delivers allowed (·.length = meaning.nvar) (meaning.proximalAt x step out) := by
  simp only [TermMeaning.proximalAt, hx, hout, checkVectors_self_self, ok_bind]
  apply (TermMeaning.delivers_requirePositiveStep others).bind
  intro _ _
  exact delivers.proximal (Tensor.length_entries_of_shape hx)

theorem TermMeaning.Delivers.proximalWithValueAt (delivers : meaning.Delivers allowed)
    (hx : x.shape = [meaning.nvar])
    (hout : (Oracle.buffer meaning.nvar out).shape = [meaning.nvar]) :
    CompositeModels.Delivers allowed (·.2.length = meaning.nvar)
      (meaning.proximalWithValueAt x step out) := by
  simp only [TermMeaning.proximalWithValueAt, hx, hout, checkVectors_self_self, ok_bind]
  apply (TermMeaning.delivers_requirePositiveStep others).bind
  intro _ _
  exact delivers.proximalWithValue (Tensor.length_entries_of_shape hx)

/-- A layer that hands its points on to a base with as many variables delivers what the base does. -/
theorem TermMeaning.Delivers.handsOn (delivers : meaning.Delivers allowed) {layer : TermMeaning α}
    (handsOn : layer.HandsOn meaning) : layer.Delivers allowed := by
  have point : ∀ {x : List α}, x.length = layer.nvar →
      (Tensor.vector x).shape = [meaning.nvar] := by
    intro x hx
    simp [hx, handsOn.nvar]
  constructor
  · intro x step hx
    rw [handsOn.proximal]
    exact (delivers.proximalAt others (point hx) (Oracle.shape_buffer_none _)).mono
      fun _ length => length.trans handsOn.nvar.symm
  · intro x step hx
    rw [handsOn.proximalWithValue]
    exact (delivers.proximalWithValueAt others (point hx) (Oracle.shape_buffer_none _)).mono
      fun _ length => length.trans handsOn.nvar.symm

theorem Slack.deliversTerm {wrapper : Wrapper α} {restriction : ConstraintMeaning α}
    (delivers : meaning.Delivers allowed) (projects : restriction.Delivers allowed)
    (same : meaning.nvar = restriction.nvar)
    (nvar : wrapper.header.nvar = restriction.nvar + restriction.ncon) :
    (Slack.termMeaning wrapper restriction meaning).Delivers allowed := by
  have block : ∀ {x : List α}, x.length = wrapper.header.nvar →
      (Tensor.vector (x.take restriction.nvar)).shape = [meaning.nvar] := by
    intro x hx
    simp [hx, nvar, same]
  have slacks : ∀ {x : List α}, x.length = wrapper.header.nvar →
      (Tensor.vector (x.drop restriction.nvar)).shape = [restriction.ncon] := by
    intro x hx
    simp [hx, nvar]
  constructor
  · intro x step hx
    apply (delivers.proximalAt others (block hx) (Oracle.shape_buffer_none _)).bind
    intro point lengthPoint
    apply (projects.projectAt (slacks hx) (Oracle.shape_buffer_none _)).bind
    intro projected lengthProjected
    exact .ok (by simp [termMeaning, lengthPoint, lengthProjected, nvar, same])
  · intro x step hx
    apply (delivers.proximalWithValueAt others (block hx) (Oracle.shape_buffer_none _)).bind
    rintro ⟨value, point⟩ lengthPoint
    change point.length = meaning.nvar at lengthPoint
    apply (projects.projectAt (slacks hx) (Oracle.shape_buffer_none _)).bind
    intro projected lengthProjected
    exact .ok (by simp [termMeaning, lengthPoint, lengthProjected, nvar, same])

end Term

theorem Model.deliversTerm [Elementary α] {models : List (Model α)} (family : Family models)
    {model : Model α} (member : model ∈ models) (packaged : model.IsPackaged) :
    model.termMeaning.Delivers model.Foresees := by
  have others : ∀ cause : Error α, ¬ cause.IsLengthMismatch → model.Foresees cause :=
    fun _ => model.foresees_of_not_mismatch
  induction model with
  | backend leaf =>
      obtain ⟨_, boxLength, _⟩ := family.regular member
      have clamps : ∀ {x : List α}, x.length = leaf.header.nvar →
          (leaf.variableBox.clamp x).length = leaf.header.nvar := by
        intro x length
        simp [Box.clamp, boxLength, length]
      exact { proximal := fun hx => .ok (clamps hx), proximalWithValue := fun hx => .ok (clamps hx) }
  | expression leaf =>
      exact {
        proximal := fun _ => .error (others _ id)
        proximalWithValue := fun _ => .error (others _ id) }
  | slack node base ih =>
      have baseMember : base ∈ models := family.bases member rfl
      obtain ⟨nvar, _⟩ := family.regular member
      exact Slack.deliversTerm others (ih baseMember packaged others)
        (Model.deliversConstraints family baseMember packaged) (by simp) (by simpa using nvar)
  | proximalPoint node base ih =>
      obtain ⟨nvar, _⟩ := family.regular member
      have delivers : base.termMeaning.Delivers base.Foresees :=
        ih (family.bases member rfl) packaged others
      exact delivers.handsOn others (Model.handsOn_proximalPoint nvar)
  | augmentedLagrangian node base ih =>
      obtain ⟨nvar, _⟩ := family.regular member
      have delivers : base.termMeaning.Delivers base.Foresees :=
        ih (family.bases member rfl) packaged others
      exact delivers.handsOn others (Model.handsOn_augmentedLagrangian nvar)
  | feasibility node base ih =>
      obtain ⟨nvar, _⟩ := family.regular member
      cases kept : node.withIndicator with
      | true =>
          have delivers : base.termMeaning.Delivers base.Foresees :=
            ih (family.bases member rfl) packaged others
          exact delivers.handsOn others (Model.handsOn_feasibility nvar kept)
      | false =>
          constructor
          · intro x step hx
            simp only [Model.termMeaning, Feasibility.termMeaning, kept, Bool.false_eq_true, if_false]
            exact .ok hx
          · intro x step hx
            simp only [Model.termMeaning, Feasibility.termMeaning, kept, Bool.false_eq_true, if_false]
            exact .ok hx
  | tailored node base ih => exact packaged.elim

/-! ### Answers about `f` -/

/-- Points of the declared length are answered, with gradients of the same length. -/
structure SmoothMeaning.Delivers (allowed : Error α → Prop) (meaning : SmoothMeaning α) : Prop where
  objective : ∀ {x}, x.length = meaning.nvar →
    CompositeModels.Delivers allowed (fun _ => True) (meaning.objective x)
  gradient : ∀ {x}, x.length = meaning.nvar →
    CompositeModels.Delivers allowed (·.length = meaning.nvar) (meaning.gradient x)
  objectiveGradient : ∀ {x}, x.length = meaning.nvar →
    CompositeModels.Delivers allowed (·.2.length = meaning.nvar) (meaning.objectiveGradient x)

/-- The objective and then the gradient are delivered where each of them is. -/
theorem SmoothMeaning.delivers_separate {allowed : Error α → Prop} {nvar : Nat}
    {objective : List α → Except (Error α) α} {gradient : List α → Except (Error α) (List α)}
    {x : List α} (first : CompositeModels.Delivers allowed (fun _ => True) (objective x))
    (second : CompositeModels.Delivers allowed (·.length = nvar) (gradient x)) :
    CompositeModels.Delivers allowed (·.2.length = nvar)
      (separateObjectiveGradient objective gradient x) :=
  first.bind fun _ _ => second.bind fun _ length => .ok length

namespace SmoothMeaning.Delivers

variable [Scalar α] {allowed : Error α → Prop} {meaning : SmoothMeaning α}
  {restriction : ConstraintMeaning α} (delivers : meaning.Delivers allowed) {x : Tensor α}
  {out : Option (Tensor α)}
include delivers

omit [Scalar α] in
theorem objectiveAt (hx : x.shape = [meaning.nvar]) :
    CompositeModels.Delivers allowed (fun _ => True) (meaning.objectiveAt x) := by
  simp only [SmoothMeaning.objectiveAt, hx, checkVectors_self, ok_bind]
  exact delivers.objective (Tensor.length_entries_of_shape hx)

theorem gradientAt (hx : x.shape = [meaning.nvar])
    (hout : (Oracle.buffer meaning.nvar out).shape = [meaning.nvar]) :
    CompositeModels.Delivers allowed (·.length = meaning.nvar) (meaning.gradientAt x out) := by
  simp only [SmoothMeaning.gradientAt, hx, hout, checkVectors_self_self, ok_bind]
  exact delivers.gradient (Tensor.length_entries_of_shape hx)

theorem objectiveGradientAt (hx : x.shape = [meaning.nvar])
    (hout : (Oracle.buffer meaning.nvar out).shape = [meaning.nvar]) :
    CompositeModels.Delivers allowed (·.2.length = meaning.nvar)
      (meaning.objectiveGradientAt x out) := by
  simp only [SmoothMeaning.objectiveGradientAt, hx, hout, checkVectors_self_self, ok_bind]
  exact delivers.objectiveGradient (Tensor.length_entries_of_shape hx)

theorem objectiveConstraintsAt (restricts : restriction.Delivers allowed)
    (nvar : restriction.nvar = meaning.nvar) (hx : x.shape = [meaning.nvar])
    (hout : (Oracle.buffer restriction.ncon out).shape = [restriction.ncon]) :
    CompositeModels.Delivers allowed (·.2.length = restriction.ncon)
      (meaning.objectiveConstraintsAt restriction x out) := by
  have length := Tensor.length_entries_of_shape hx
  simp only [SmoothMeaning.objectiveConstraintsAt, hx, hout, checkVectors_self, ok_bind]
  apply (delivers.objective length).bind
  intro value _
  split
  · exact (restricts.constraints (length.trans nvar.symm)).bind fun _ lengthC => .ok lengthC
  · exact .ok (by simp; omega)

end SmoothMeaning.Delivers

section Smooth

variable [Scalar α] {allowed : Error α → Prop} {meaning : SmoothMeaning α}
  {restriction : ConstraintMeaning α}

theorem Slack.deliversSmooth {wrapper : Wrapper α} (delivers : meaning.Delivers allowed)
    (nvar : meaning.nvar ≤ wrapper.header.nvar) :
    (Slack.smoothMeaning wrapper meaning).Delivers allowed := by
  have block : ∀ {x : List α}, x.length = wrapper.header.nvar →
      (Tensor.vector (x.take meaning.nvar)).shape = [meaning.nvar] := by
    intro x hx
    simp [hx, nvar]
  exact {
    objective := fun hx => delivers.objectiveAt (block hx)
    gradient := by
      intro x hx
      change x.length = wrapper.header.nvar at hx
      apply (delivers.gradientAt (block hx) (Oracle.shape_buffer_none _)).bind
      intro slope length
      exact .ok (by simp [smoothMeaning, length, hx, nvar])
    objectiveGradient := by
      intro x hx
      change x.length = wrapper.header.nvar at hx
      apply (delivers.objectiveGradientAt (block hx) (Oracle.shape_buffer_none _)).bind
      rintro ⟨value, slope⟩ length
      change slope.length = meaning.nvar at length
      exact .ok (by simp [smoothMeaning, length, hx, nvar]) }

namespace AugmentedLagrangian

variable {node : AugmentedLagrangian α} {penalty : Penalty α}
  (restricts : restriction.Delivers allowed) (fits : penalty.Fits restriction.ncon)
include restricts fits

theorem delivers_penaltyMeaning {values : List α} (length : values.length = restriction.ncon) :
    Delivers allowed (·.2.length = restriction.ncon) (penaltyMeaning penalty restriction values) := by
  have lengthShift := Tensor.length_entries_of_shape fits.shiftShape
  have shifted : (Tensor.vector (Vec.add values penalty.shift.entries)).shape =
      [restriction.ncon] := by
    simp [length, lengthShift]
  apply (restricts.projectAt shifted (Oracle.shape_buffer_none _)).bind
  intro projected lengthProjected
  have lengthMu := Tensor.length_entries_of_shape fits.mu
  exact .ok (by simp [length, lengthShift, lengthProjected, lengthMu])

/-- The estimate has as many entries as there are constraints, so the product with the transposed Jacobian
can be taken. -/
theorem deliversSmooth (delivers : meaning.Delivers allowed)
    (nvar : node.header.nvar = meaning.nvar) (same : restriction.nvar = meaning.nvar) :
    (node.smoothMeaning penalty restriction meaning).Delivers allowed := by
  have point : ∀ {x : List α}, x.length = node.header.nvar →
      (Tensor.vector x).shape = [meaning.nvar] := by
    intro x hx
    simp [hx, nvar]
  have constraints : ∀ {x : List α}, x.length = node.header.nvar →
      Delivers allowed (·.length = restriction.ncon)
        (restriction.constraintsAt (.vector x) none) :=
    fun hx => restricts.constraintsAt (same ▸ point hx) (Oracle.shape_buffer_none _)
  have adjoint : ∀ {x estimate : List α}, x.length = node.header.nvar →
      estimate.length = restriction.ncon →
      Delivers allowed (·.length = restriction.nvar)
        (restriction.adjointProductAt (.vector x) (.vector estimate) none) :=
    fun hx length => restricts.adjointProductAt (same ▸ point hx) (by simp [length])
      (Oracle.shape_buffer_none _)
  exact {
    objective := by
      intro x hx
      apply (delivers.objectiveConstraintsAt restricts same (point hx)
        (Oracle.shape_buffer_none _)).bind
      rintro ⟨value, values⟩ length
      exact (delivers_penaltyMeaning restricts fits length).bind fun _ _ => .ok trivial
    gradient := by
      intro x hx
      apply (constraints hx).bind
      intro values length
      apply (delivers_penaltyMeaning restricts fits length).bind
      rintro ⟨term, estimate⟩ lengthEstimate
      apply (delivers.gradientAt (point hx) (Oracle.shape_buffer_none _)).bind
      intro slope lengthSlope
      apply (adjoint hx lengthEstimate).bind
      intro correction lengthCorrection
      exact .ok (by simp [smoothMeaning, lengthSlope, lengthCorrection, nvar, same])
    objectiveGradient := by
      intro x hx
      apply (constraints hx).bind
      intro values length
      apply (delivers_penaltyMeaning restricts fits length).bind
      rintro ⟨term, estimate⟩ lengthEstimate
      apply (delivers.objectiveGradientAt (point hx) (Oracle.shape_buffer_none _)).bind
      rintro ⟨value, slope⟩ lengthSlope
      change slope.length = meaning.nvar at lengthSlope
      apply (adjoint hx lengthEstimate).bind
      intro correction lengthCorrection
      exact .ok (by simp [smoothMeaning, lengthSlope, lengthCorrection, nvar, same]) }

/-- The multiplier estimate is as long as the constraints of the base. -/
theorem delivers_estimateMeaning {x : List α} (hx : x.length = restriction.nvar) :
    Delivers allowed (·.length = restriction.ncon) (estimateMeaning penalty restriction x) := by
  apply (restricts.constraintsAt (x := .vector x) (by simp [hx]) (Oracle.shape_buffer_none _)).bind
  intro values length
  exact (delivers_penaltyMeaning restricts fits length).bind fun _ length => .ok length

end AugmentedLagrangian

namespace Feasibility

variable {node : Feasibility α}

/-- A direction is as long as the residual. The only failure is a division by zero. -/
theorem delivers_direction (division : allowed .divisionByZero) (loss : Loss) (huber : Huber α)
    (r : List α) :
    Delivers allowed (fun direction? => ∀ d, direction? = some d → d.length = r.length)
      (loss.direction huber r) := by
  have found : ∀ {d : List α}, d.length = r.length →
      Delivers allowed (fun direction? => ∀ d, direction? = some d → d.length = r.length)
        (.ok (some d)) := by
    intro d length
    apply Delivers.ok
    intro other same
    cases same
    exact length
  cases loss with
  | abs => exact found (List.length_map _)
  | euclid =>
      simp only [Loss.direction]
      split
      · apply Delivers.ok
        intro d same
        cases same
      · exact found (Vec.length_divide _ _)
  | euclidSquared => exact found rfl
  | huber =>
      simp only [Loss.direction, Huber.direction]
      split
      · exact found (Vec.length_scale _ _)
      · split
        · exact .error division
        · exact found (Vec.length_scale _ _)

variable (restricts : restriction.Delivers allowed)
include restricts

theorem delivers_residualMeaning {x : List α} (hx : x.length = restriction.nvar) :
    Delivers allowed (·.length = restriction.ncon) (residualMeaning restriction x) := by
  apply (restricts.constraintsAt (x := .vector x) (by simp [hx]) (Oracle.shape_buffer_none _)).bind
  intro values length
  apply (restricts.projectAt (v := .vector values) (by simp [length])
    (Oracle.shape_buffer_none _)).bind
  intro projected lengthProjected
  exact .ok (by simp [length, lengthProjected])

theorem delivers_infeasibilityMeaning {x : List α} (hx : x.length = restriction.nvar) :
    Delivers allowed (fun _ => True) (node.infeasibilityMeaning restriction x) :=
  (delivers_residualMeaning restricts hx).map fun _ _ => trivial

theorem delivers_violationMeaning {x : List α} (hx : x.length = restriction.nvar) :
    Delivers allowed (fun _ => True) (violationMeaning restriction x) :=
  (delivers_residualMeaning restricts hx).map fun _ _ => trivial

variable (others : ∀ cause : Error α, ¬ cause.IsLengthMismatch → allowed cause)
  (nvar : node.header.nvar = restriction.nvar)
include others nvar

theorem delivers_infeasibilityGradientMeaning {x : List α} (hx : x.length = node.header.nvar) :
    Delivers allowed (·.length = node.header.nvar)
      (node.infeasibilityGradientMeaning restriction x) := by
  have hx : x.length = restriction.nvar := hx.trans nvar
  apply (delivers_residualMeaning restricts hx).bind
  intro r lengthR
  apply (delivers_direction (others _ id) node.loss node.huber r).bind
  intro direction? found
  cases direction? with
  | none => exact .ok (Vec.length_zeros _)
  | some direction =>
      have length : direction.length = restriction.ncon := (found _ rfl).trans lengthR
      exact (restricts.adjointProductAt (x := .vector x) (v := .vector direction) (by simp [hx])
        (by simp [length]) (Oracle.shape_buffer_none _)).mono fun _ length => length.trans nvar.symm

theorem deliversSmooth (center : node.center.length = node.header.nvar)
    (scaling : node.scaling.length = node.header.nvar) :
    (node.smoothMeaning restriction).Delivers allowed := by
  have objectives : ∀ {x : List α}, x.length = node.header.nvar →
      Delivers allowed (fun _ => True) (node.objectiveMeaning restriction x) := by
    intro x hx
    apply (delivers_infeasibilityMeaning restricts (hx.trans nvar)).bind
    intro value _
    split
    · exact .ok trivial
    · exact .ok trivial
  have gradients : ∀ {x : List α}, x.length = node.header.nvar →
      Delivers allowed (·.length = node.header.nvar) (node.gradientMeaning restriction x) := by
    intro x hx
    apply (delivers_infeasibilityGradientMeaning restricts others nvar hx).bind
    intro slope length
    split
    · exact .ok (by simp [length, hx, center, scaling])
    · exact .ok length
  exact {
    objective := objectives
    gradient := gradients
    objectiveGradient := fun hx => SmoothMeaning.delivers_separate (objectives hx) (gradients hx) }

end Feasibility

end Smooth

/-- Every packaged stack delivers its answers about `f`, also where they depend on a residual that was
kept. -/
theorem Model.passesOn_delivers [Elementary α] {models : List (Model α)}
    {penalties : Table (Penalty α)} (family : Family models)
    (fits : ∀ {node base}, .augmentedLagrangian node base ∈ models →
      (node.penaltyIn penalties).Fits base.header.ncon) :
    SmoothMeaning.PassedOn models penalties fun model meaning =>
      model.IsPackaged → meaning.Delivers model.Foresees where
  backend := by
    intro leaf member _
    obtain ⟨fills, _, _⟩ := family.regular member
    have objectives : ∀ {x : List α}, x.length = leaf.header.nvar →
        Delivers (Model.backend leaf).Foresees (fun _ => True) (leaf.backend.objective x) :=
      fun hx => ⟨fun _ _ => trivial, fun _ failed => leaf.foresees (.objective hx failed)⟩
    have gradients : ∀ {x : List α}, x.length = leaf.header.nvar →
        Delivers (Model.backend leaf).Foresees (·.length = leaf.header.nvar)
          (leaf.backend.gradient x) :=
      fun hx => ⟨fun _ returned => fills.gradient hx returned,
        fun _ failed => leaf.foresees (.gradient hx failed)⟩
    exact {
      objective := objectives
      gradient := gradients
      objectiveGradient := fun hx =>
        SmoothMeaning.delivers_separate (objectives hx) (gradients hx) }
  expression := by
    intro leaf member _
    exact {
      objective := fun _ => .ok trivial
      gradient := fun hx => .ok ((Expression.length_gradient _ _).trans hx)
      objectiveGradient := fun hx => .ok ((Expression.length_gradient _ _).trans hx) }
  slack := by
    intro node base meaning member sameNvar delivers packaged
    obtain ⟨nvar, _⟩ := family.regular member
    exact Slack.deliversSmooth (delivers packaged) (by omega)
  proximalPoint := by
    intro node base member _
    obtain ⟨nvar, _, anchor⟩ := family.regular member
    have length : ∀ {x : List α}, x.length = node.header.nvar →
        (node.gradient x).length = node.header.nvar := by
      intro x hx
      simp [ProximalPoint.gradient, hx, anchor, nvar]
    exact {
      objective := fun _ => .ok trivial
      gradient := fun hx => .ok (length hx)
      objectiveGradient := fun hx => .ok (length hx) }
  augmentedLagrangian := by
    intro node base meaning member sameNvar delivers packaged
    obtain ⟨nvar, _⟩ := family.regular member
    have restricts := Model.deliversConstraints family (family.bases member rfl) packaged
    refine AugmentedLagrangian.deliversSmooth restricts ?_ (delivers packaged)
      (nvar.trans sameNvar.symm) (by simp [sameNvar])
    simpa using fits member
  feasibility := by
    intro node base point member length packaged
    obtain ⟨nvar, _, center, scaling⟩ := family.regular member
    have restricts := Model.deliversConstraints family (family.bases member rfl) packaged
    refine Feasibility.deliversSmooth (restricts.withValuesAt (by simpa using length))
      (fun _ => Model.foresees_of_not_mismatch _) ?_ (center.trans nvar.symm)
      (scaling.trans nvar.symm)
    show node.header.nvar = base.constraintMeaning.nvar
    simpa using nvar
  tailored := fun _ _ _ packaged => packaged.elim

end CompositeModels
