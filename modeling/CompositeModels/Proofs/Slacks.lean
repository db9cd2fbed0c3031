/-
Module: CompositeModels.Proofs.Slacks
Purpose: What a slack reformulation answers at a point `[x; s]`, in terms of what its base answers at
  `x`. In every session, each operation falls into a block for `x` and a block for `s`.
Main exports: Vec.exists_append, Session.Sound.outcome_constraints_slack,
  Session.Sound.outcome_project_slack, Session.Sound.outcome_jacobianProduct_slack,
  Session.Sound.outcome_adjointProduct_slack, Session.Sound.outcome_proximal_slack,
  Session.Sound.outcome_proximalWithValue_slack, SlackPoint, SlackPoint.outcome_constraints,
  SlackPoint.outcome_adjointProduct, SlackPoint.outcome_project, SlackPoint.outcome_proximal,
  SlackPoint.outcome_objective, SlackPoint.outcome_gradient
-/
import CompositeModels.Proofs.Session

namespace CompositeModels

variable {α : Type} [Elementary α]

/-- A vector with room for two blocks consists of two blocks. -/
theorem Vec.exists_append {β : Type} {v : List β} {m n : Nat} (length : v.length = m + n) :
    ∃ first second : List β, v = first ++ second ∧ first.length = m ∧ second.length = n := by
  refine ⟨v.take m, v.drop m, (List.take_append_drop m v).symm, ?_, ?_⟩
  · simp [length]
  · simp [length]

namespace Session.Sound

variable {session : Session α} {wrapper : Wrapper α} {base : Model α} {x s : List α}
  (sound : session.Sound) (member : .slack wrapper base ∈ session.models)
include sound member

theorem nvar_slack :
    (Model.slack wrapper base).header.nvar = base.header.nvar + base.header.ncon :=
  (sound.family.regular member).1

theorem ncon_slack : (Model.slack wrapper base).header.ncon = base.header.ncon :=
  (sound.family.regular member).2

/-- The constraint values are `c(x) - s`. -/
theorem outcome_constraints_slack (hx : x.length = base.header.nvar)
    (hs : s.length = base.header.ncon) :
    ((Model.slack wrapper base).oracle.constraints (.vector (x ++ s)) none).outcome session.store =
      (do
        let content ← (base.oracle.constraints (.vector x) none).outcome session.store
        return Vec.sub content s) := by
  have baseMember : base ∈ session.models := sound.family.bases member rfl
  have nvar := sound.nvar_slack member
  have ncon := sound.ncon_slack member
  have lengthX : (x ++ s).length = (Model.slack wrapper base).constraintMeaning.nvar := by
    simp [hx, hs, nvar]
  rw [sound.outcome_constraints member, sound.outcome_constraints baseMember,
    ConstraintMeaning.constraintsAt_vector lengthX]
  split
  · simp only [Model.constraintMeaning, Slack.constraintMeaning, Model.nvar_constraintMeaning,
      List.take_left' hx, List.drop_left' hx]
  · next unconstrained =>
      have none : ¬ 0 < base.header.ncon := ncon ▸ unconstrained
      rw [ConstraintMeaning.constraintsAt_vector (by simpa using hx), Model.ncon_constraintMeaning,
        if_neg none]
      rfl

/-- The set is the zero vector alone. -/
theorem outcome_project_slack {v : List α} (hv : v.length = base.header.ncon) :
    ((Model.slack wrapper base).oracle.project (.vector v) none).outcome session.store =
      .ok (Vec.zeroed v) := by
  have ncon := sound.ncon_slack member
  have lengthV : v.length = (Model.slack wrapper base).constraintMeaning.ncon := by
    simp [hv, ncon]
  rw [sound.outcome_project member, ConstraintMeaning.projectAt_vector lengthV]
  split
  · rfl
  · next unconstrained =>
      have none : v.length = 0 := Nat.eq_zero_of_not_pos (lengthV ▸ unconstrained)
      rw [List.eq_nil_of_length_eq_zero none]
      rfl

/-- The Jacobian is that of the base beside minus the identity. -/
theorem outcome_jacobianProduct_slack {v t : List α} (hx : x.length = base.header.nvar)
    (hs : s.length = base.header.ncon) (hv : v.length = base.header.nvar)
    (ht : t.length = base.header.ncon) :
    ((Model.slack wrapper base).oracle.jacobianProduct (.vector (x ++ s)) (.vector (v ++ t))
        none).outcome session.store =
      (do
        let content ←
          (base.oracle.jacobianProduct (.vector x) (.vector v) none).outcome session.store
        return Vec.sub content t) := by
  have baseMember : base ∈ session.models := sound.family.bases member rfl
  have nvar := sound.nvar_slack member
  have ncon := sound.ncon_slack member
  have lengthX : (x ++ s).length = (Model.slack wrapper base).constraintMeaning.nvar := by
    simp [hx, hs, nvar]
  have lengthV : (v ++ t).length = (Model.slack wrapper base).constraintMeaning.nvar := by
    simp [hv, ht, nvar]
  rw [sound.outcome_jacobianProduct member, sound.outcome_jacobianProduct baseMember,
    ConstraintMeaning.jacobianProductAt_vector lengthX lengthV]
  split
  · simp only [Model.constraintMeaning, Slack.constraintMeaning, Model.nvar_constraintMeaning,
      List.take_left' hx, List.take_left' hv, List.drop_left' hv]
  · next unconstrained =>
      have none : ¬ 0 < base.header.ncon := ncon ▸ unconstrained
      rw [ConstraintMeaning.jacobianProductAt_vector (by simpa using hx) (by simpa using hv),
        Model.ncon_constraintMeaning, if_neg none]
      rfl

/-- The transposed Jacobian is that of the base above minus the identity. -/
theorem outcome_adjointProduct_slack {y : List α} (hx : x.length = base.header.nvar)
    (hs : s.length = base.header.ncon) (hy : y.length = base.header.ncon) :
    ((Model.slack wrapper base).oracle.adjointProduct (.vector (x ++ s)) (.vector y) none).outcome
        session.store =
      (do
        let content ←
          (base.oracle.adjointProduct (.vector x) (.vector y) none).outcome session.store
        return content ++ Vec.neg y) := by
  have baseMember : base ∈ session.models := sound.family.bases member rfl
  have nvar := sound.nvar_slack member
  have ncon := sound.ncon_slack member
  have lengthX : (x ++ s).length = (Model.slack wrapper base).constraintMeaning.nvar := by
    simp [hx, hs, nvar]
  have lengthY : y.length = (Model.slack wrapper base).constraintMeaning.ncon := by
    simp [hy, ncon]
  rw [sound.outcome_adjointProduct member, sound.outcome_adjointProduct baseMember,
    ConstraintMeaning.adjointProductAt_vector lengthX lengthY]
  split
  · simp only [Model.constraintMeaning, Slack.constraintMeaning, Model.nvar_constraintMeaning,
      List.take_left' hx]
  · next unconstrained =>
      have none : ¬ 0 < base.header.ncon := ncon ▸ unconstrained
      have empty : base.header.ncon = 0 := Nat.eq_zero_of_not_pos none
      have emptyY : y = [] := List.eq_nil_of_length_eq_zero (hy.trans empty)
      rw [ConstraintMeaning.adjointProductAt_vector (by simpa using hx) (by simpa using hy),
        Model.ncon_constraintMeaning, if_neg none, emptyY, Model.nvar_constraintMeaning,
        Model.nvar_constraintMeaning]
      change Except.ok (Vec.zeros (Model.slack wrapper base).header.nvar) =
        Except.ok (Vec.zeros base.header.nvar ++ [])
      rw [List.append_nil, nvar, empty, Nat.add_zero]

/-- The proximal point is that of the base beside the projection of the slacks. -/
theorem outcome_proximal_slack (hx : x.length = base.header.nvar) (hs : s.length = base.header.ncon)
    {step : α} (positive : 0 < step) :
    ((Model.slack wrapper base).oracle.proximal (.vector (x ++ s)) step none).outcome session.store =
      (do
        let proximal ← (base.oracle.proximal (.vector x) step none).outcome session.store
        let projected ← (base.oracle.project (.vector s) none).outcome session.store
        return proximal ++ projected) := by
  have baseMember : base ∈ session.models := sound.family.bases member rfl
  have nvar := sound.nvar_slack member
  have lengthX : (x ++ s).length = (Model.slack wrapper base).termMeaning.nvar := by
    simp [hx, hs, nvar]
  rw [sound.outcome_proximal member, sound.outcome_proximal baseMember,
    sound.outcome_project baseMember, TermMeaning.proximalAt_vector positive lengthX]
  simp only [Model.termMeaning, Slack.termMeaning, Model.nvar_constraintMeaning, List.take_left' hx,
    List.drop_left' hx]

/-- The value of the term is that of the base, since the indicator of the set is zero on projections. -/
theorem outcome_proximalWithValue_slack (hx : x.length = base.header.nvar)
    (hs : s.length = base.header.ncon) {step : α} (positive : 0 < step) :
    ((Model.slack wrapper base).oracle.proximalWithValue (.vector (x ++ s)) step none).outcome
        session.store =
      (do
        let (value, proximal) ←
          (base.oracle.proximalWithValue (.vector x) step none).outcome session.store
        let projected ← (base.oracle.project (.vector s) none).outcome session.store
        return (value, proximal ++ projected)) := by
  have baseMember : base ∈ session.models := sound.family.bases member rfl
  have nvar := sound.nvar_slack member
  have lengthX : (x ++ s).length = (Model.slack wrapper base).termMeaning.nvar := by
    simp [hx, hs, nvar]
  rw [sound.outcome_proximalWithValue member, sound.outcome_proximalWithValue baseMember,
    sound.outcome_project baseMember, TermMeaning.proximalWithValueAt_vector positive lengthX]
  simp only [Model.termMeaning, Slack.termMeaning, Model.nvar_constraintMeaning, List.take_left' hx,
    List.drop_left' hx]

end Session.Sound

/-- A slack reformulation of a session, and a point of its base with a slack vector beside it. -/
structure SlackPoint (session : Session α) (wrapper : Wrapper α) (base : Model α) (x s : List α) :
    Prop where
  sound : session.Sound
  member : .slack wrapper base ∈ session.models
  constrained : 0 < base.header.ncon
  lengthX : x.length = base.header.nvar
  lengthS : s.length = base.header.ncon

namespace SlackPoint

variable {session : Session α} {wrapper : Wrapper α} {base : Model α} {x s : List α}
  (point : SlackPoint session wrapper base x s)
include point

theorem baseMember : base ∈ session.models :=
  point.sound.family.bases point.member rfl

theorem nvar : wrapper.header.nvar = base.header.nvar + base.header.ncon :=
  point.sound.nvar_slack point.member

theorem length : (x ++ s).length = wrapper.header.nvar := by
  rw [List.length_append, point.lengthX, point.lengthS, point.nvar]

theorem take : (x ++ s).take base.header.nvar = x :=
  List.take_left' point.lengthX

theorem drop : (x ++ s).drop base.header.nvar = s :=
  List.drop_left' point.lengthX

/-- The constraint values are `c(x) - s`. -/
theorem outcome_constraints :
    ((Model.slack wrapper base).oracle.constraints (.vector (x ++ s)) none).outcome session.store =
      (do
        let content ← (base.oracle.constraints (.vector x) none).outcome session.store
        return Vec.sub content s) :=
  point.sound.outcome_constraints_slack point.member point.lengthX point.lengthS

/-- The transposed Jacobian has the one of the base in its first block, and minus one in the other. -/
theorem outcome_adjointProduct {y : List α} (lengthY : y.length = base.header.ncon) :
    ((Model.slack wrapper base).oracle.adjointProduct (.vector (x ++ s)) (.vector y) none).outcome
        session.store =
      (do
        let content ←
          (base.oracle.adjointProduct (.vector x) (.vector y) none).outcome session.store
        return content ++ Vec.neg y) :=
  point.sound.outcome_adjointProduct_slack point.member point.lengthX point.lengthS lengthY

/-- The set is the zero vector alone. -/
theorem outcome_project {v : List α} (lengthV : v.length = base.header.ncon) :
    ((Model.slack wrapper base).oracle.project (.vector v) none).outcome session.store =
      .ok (Vec.zeroed v) :=
  point.sound.outcome_project_slack point.member lengthV

/-- The proximal point is that of the base beside the projection of the slacks. -/
theorem outcome_proximal {step : α} (positive : 0 < step) :
    ((Model.slack wrapper base).oracle.proximal (.vector (x ++ s)) step none).outcome session.store =
      (do
        let proximal ← (base.oracle.proximal (.vector x) step none).outcome session.store
        let projected ← (base.oracle.project (.vector s) none).outcome session.store
        return proximal ++ projected) :=
  point.sound.outcome_proximal_slack point.member point.lengthX point.lengthS positive

/-- The objective is that of the base, whatever the slacks are. -/
theorem outcome_objective (repeatable : base.Repeatable) :
    ((Model.slack wrapper base).oracle.objective (.vector (x ++ s))).outcome session.store =
      (base.oracle.objective (.vector x)).outcome session.store := by
  rw [point.sound.outcome_objective point.member repeatable,
    point.sound.outcome_objective point.baseMember repeatable,
    SmoothMeaning.objectiveAt_vector point.length]
  simp only [Model.smoothMeaning, Slack.smoothMeaning, Model.nvar_smoothMeaning, point.take]

/-- The gradient is that of the base, and zero in the block of the slacks. -/
theorem outcome_gradient (repeatable : base.Repeatable) :
    ((Model.slack wrapper base).oracle.gradient (.vector (x ++ s)) none).outcome session.store =
      (do
        let slope ← (base.oracle.gradient (.vector x) none).outcome session.store
        return slope ++ Vec.zeroed s) := by
  rw [point.sound.outcome_gradient point.member repeatable,
    point.sound.outcome_gradient point.baseMember repeatable,
    SmoothMeaning.gradientAt_vector point.length]
  simp only [Model.smoothMeaning, Slack.smoothMeaning, Model.nvar_smoothMeaning, point.take,
    point.drop]

end SlackPoint

end CompositeModels
