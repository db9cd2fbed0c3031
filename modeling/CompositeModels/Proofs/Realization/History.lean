/-
Module: CompositeModels.Proofs.Realization.History
Purpose: What a stack answers about `f` from the store at hand, also where equal scalars need not be the
  same. A feasibility problem on the way to `f` may find a residual that was kept at another point with
  equal entries, so its answers are those of a meaning that depends on the history. Properties that such
  meanings pass on from a base to what is built on it hold of every stack.
Main exports: ConstraintMeaning.withValuesAt, ResidualCache.Sound.exists_recall_eq,
  Feasibility.exists_recalled, SmoothMeaning.PassedOn, SmoothMeaning.PassedOn.exists_meaning
-/
import CompositeModels.Proofs.Realization.Smooth

namespace CompositeModels

open Eval (Answers)

variable {α : Type}

/-! ### A kept residual -/

section Kept

variable [Scalar α]

/-- The answers of a problem that has the constraint values of one point everywhere. -/
def ConstraintMeaning.withValuesAt (base : ConstraintMeaning α) (point : List α) :
    ConstraintMeaning α :=
  { base with constraints := fun _ => base.constraints point }

theorem Feasibility.residualMeaning_withValuesAt (base : ConstraintMeaning α) {x point : List α}
    (length : point.length = x.length) :
    residualMeaning (base.withValuesAt point) x = residualMeaning base point := by
  have values : (base.withValuesAt point).constraintsAt (.vector x) none =
      base.constraintsAt (.vector point) none := by
    simp only [ConstraintMeaning.constraintsAt, ConstraintMeaning.withValuesAt, Tensor.shape_vector,
      length]
    rfl
  rw [residualMeaning, values]
  rfl

end Kept

variable [Elementary α]

/-- Whatever residual is found at a point, it is that of a point of the same length. -/
theorem ResidualCache.Sound.exists_recall_eq {cache : ResidualCache α} {base : ConstraintMeaning α}
    (sound : cache.Sound base) (x : List α) :
    ∃ point : List α, point.length = x.length ∧
      cache.recall base x = Feasibility.residualMeaning base point := by
  unfold ResidualCache.recall
  split
  · next hit =>
      rcases (Option.any_eq_true _ _).1 hit with ⟨point, kept, equal⟩
      exact ⟨point, (List.length_eq_of_beq equal).symm, (sound.point kept).symm⟩
  · exact ⟨x, rfl, rfl⟩

/-- From a ready store, a feasibility problem finds the residual of some point at `x`, and goes on to find
it there. -/
theorem Feasibility.exists_recalled {models : List (Model α)} {penalties : Table (Penalty α)}
    (family : Family models) {store : Store α} (ready : store.Ready models penalties)
    {node : Feasibility α} {base : Model α} (member : .feasibility node base ∈ models) (x : List α) :
    ∃ (valid : Store α → Prop) (point : List α), valid store ∧ Store.Steady models penalties valid ∧
      point.length = x.length ∧
      Answers valid True (node.residual base.oracle x) (·.length = base.header.ncon)
        (residualMeaning (base.constraintMeaning.withValuesAt point) x) := by
  obtain ⟨point, length, recalled⟩ := (ready.cache member).exists_recall_eq x
  refine ⟨_, point, ⟨ready, recalled⟩, Recalls.steady family, length, ?_⟩
  rw [residualMeaning_withValuesAt _ length]
  exact answers_recalled family member

/-! ### Properties of stacks -/

/-- A property of models with their meanings that leaves have and bases pass on to what is built on them.
A feasibility problem has the constraint values of some point, which need not be the one asked about. -/
structure SmoothMeaning.PassedOn (models : List (Model α)) (penalties : Table (Penalty α))
    (property : Model α → SmoothMeaning α → Prop) : Prop where
  backend : ∀ {leaf}, .backend leaf ∈ models → property (.backend leaf) leaf.smoothMeaning
  expression : ∀ {leaf}, .expression leaf ∈ models →
    property (.expression leaf) leaf.smoothMeaning
  slack : ∀ {node base meaning}, .slack node base ∈ models → meaning.nvar = base.header.nvar →
    property base meaning → property (.slack node base) (Slack.smoothMeaning node meaning)
  proximalPoint : ∀ {node base}, .proximalPoint node base ∈ models →
    property (.proximalPoint node base) node.smoothMeaning
  augmentedLagrangian : ∀ {node base meaning}, .augmentedLagrangian node base ∈ models →
    meaning.nvar = base.header.nvar → property base meaning →
    property (.augmentedLagrangian node base)
      (node.smoothMeaning (node.penaltyIn penalties) base.constraintMeaning meaning)
  feasibility : ∀ {node base point}, .feasibility node base ∈ models →
    point.length = base.header.nvar →
    property (.feasibility node base)
      (node.smoothMeaning (base.constraintMeaning.withValuesAt point))
  tailored : ∀ {node base meaning}, .tailored node base ∈ models →
    meaning.nvar = base.header.nvar → property base meaning →
    property (.tailored node base) (node.smoothMeaning meaning)

/-- From a ready store, the questions about `f` at one point are answered as a meaning with the property
says, and go on to be after each of them. For a stack with a feasibility problem on the way to `f` this
meaning depends on the residual that the store holds. -/
theorem SmoothMeaning.PassedOn.exists_meaning {models : List (Model α)}
    {penalties : Table (Penalty α)} {property : Model α → SmoothMeaning α → Prop}
    (passedOn : PassedOn models penalties property) (family : Family models) {store : Store α}
    (ready : store.Ready models penalties) {model : Model α} (member : model ∈ models)
    (x : Tensor α) :
    ∃ (valid : Store α → Prop) (meaning : SmoothMeaning α), valid store ∧
      Store.Steady models penalties valid ∧ property model meaning ∧
      model.oracle.RealizesSmoothAt valid True model.constraintMeaning meaning x := by
  have steady : Store.Steady models penalties (Store.Ready models penalties) :=
    Store.Ready.steady family
  induction model generalizing x with
  | backend leaf =>
      refine ⟨_, leaf.smoothMeaning, ready, steady, passedOn.backend member, ?_⟩
      refine Model.realizesSmooth_oracle family member steady rfl fun hx => ?_
      exact BackendLeaf.realizesSmooth family (family.regular member) hx
  | expression leaf =>
      refine ⟨_, leaf.smoothMeaning, ready, steady, passedOn.expression member, ?_⟩
      refine Model.realizesSmooth_oracle family member steady rfl fun hx => ?_
      exact ExpressionLeaf.realizesSmooth hx
  | slack node base ih =>
      rcases family.regular member with ⟨nvar, _⟩
      obtain ⟨valid, meaning, holds, steady, known, realizes⟩ :=
        ih (family.bases member rfl) (.vector (x.entries.take base.header.nvar))
      have sameNvar : meaning.nvar = base.header.nvar := by simpa using realizes.nvar
      refine ⟨valid, Slack.smoothMeaning node meaning, holds, steady,
        passedOn.slack member sameNvar known, ?_⟩
      refine Model.realizesSmooth_oracle family member steady rfl fun hx => ?_
      exact Slack.realizesSmooth (sameNvar ▸ realizes) (by simp [sameNvar, nvar]) hx
  | proximalPoint node base =>
      rcases family.regular member with ⟨nvar, _, anchor⟩
      refine ⟨_, node.smoothMeaning, ready, steady, passedOn.proximalPoint member, ?_⟩
      refine Model.realizesSmooth_oracle family member steady rfl fun hx => ?_
      exact ProximalPoint.realizesSmooth (anchor.trans nvar.symm) hx
  | augmentedLagrangian node base ih =>
      obtain ⟨valid, meaning, holds, steady, known, realizes⟩ :=
        ih (family.bases member rfl) (.vector x.entries)
      have sameNvar : meaning.nvar = base.header.nvar := by simpa using realizes.nvar
      refine ⟨valid, node.smoothMeaning (node.penaltyIn penalties) base.constraintMeaning meaning,
        holds, steady, passedOn.augmentedLagrangian member sameNvar known, ?_⟩
      refine Model.realizesSmooth_oracle family member steady rfl fun _ => ?_
      exact AugmentedLagrangian.realizesSmooth family steady member realizes
  | feasibility node base =>
      rcases family.regular member with ⟨nvar, _⟩
      by_cases hx : x.entries.length = node.header.nvar
      · obtain ⟨valid, point, holds, steady, length, residual⟩ :=
          Feasibility.exists_recalled family ready member x.entries
        refine ⟨valid, node.smoothMeaning (base.constraintMeaning.withValuesAt point), holds, steady,
          passedOn.feasibility member (length.trans (hx.trans nvar)), ?_⟩
        refine Model.realizesSmooth_oracle family member steady rfl fun hx => ?_
        exact Feasibility.realizesSmooth family steady member hx residual rfl
      · -- What does not have the declared length is refused, whatever the meaning is.
        refine ⟨_, node.smoothMeaning (base.constraintMeaning.withValuesAt
          (Vec.zeros base.header.nvar)), ready, steady,
          passedOn.feasibility member (Vec.length_zeros _), ?_⟩
        exact Model.realizesSmooth_oracle family member steady rfl fun length => absurd length hx
  | tailored node base ih =>
      obtain ⟨valid, meaning, holds, steady, known, realizes⟩ :=
        ih (family.bases member rfl) (.vector x.entries)
      have sameNvar : meaning.nvar = base.header.nvar := by simpa using realizes.nvar
      refine ⟨valid, node.smoothMeaning meaning, holds, steady,
        passedOn.tailored member sameNvar known, ?_⟩
      refine Model.realizesSmooth_oracle family member steady rfl fun _ => ?_
      exact Tailored.realizesSmooth realizes

end CompositeModels
