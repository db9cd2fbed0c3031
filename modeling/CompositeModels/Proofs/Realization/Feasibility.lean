/-
Module: CompositeModels.Proofs.Realization.Feasibility
Purpose: The evaluations of a feasibility problem answer as functions of the point, although they share
  a residual that is kept from one evaluation to the next. What is kept is the residual at the point
  that is kept with it, after every evaluation, also one that fails. So what the residual is at a point
  can be told from the store, and asking for it there does not change that. It is a function of the point
  if points with equal entries have the same constraint values.
Main exports: Model.PointFunction, ResidualCache.recall, Feasibility.Recalls,
  Feasibility.answers_recalled, Feasibility.answers_residual, Feasibility.answers_infeasibility,
  Feasibility.answers_infeasibilityGradient, Feasibility.answers_violation, Feasibility.realizesSmooth
-/
import CompositeModels.Proofs.Realization.Constraints

namespace CompositeModels

open Eval (Answers AnswersAt)

variable {α : Type} [Elementary α]

/-- The constraint values of a model are a function of the point: where two points have equal entries,
the model answers alike. Entries that are equal need not be the same, and an undefined entry is not
even equal to itself. -/
def Model.PointFunction (model : Model α) : Prop :=
  ∀ x x' : List α, (x == x') = true →
    model.constraintMeaning.constraintsAt (.vector x) none =
      model.constraintMeaning.constraintsAt (.vector x') none

theorem Model.PointFunction.residualMeaning_eq {base : Model α} (pointFunction : base.PointFunction)
    {x x' : List α} (equal : (x == x') = true) :
    Feasibility.residualMeaning base.constraintMeaning x =
      Feasibility.residualMeaning base.constraintMeaning x' := by
  rw [Feasibility.residualMeaning, Feasibility.residualMeaning, pointFunction x x' equal]

/-- Where equal scalars are the same scalar, every model is a function of the point. -/
theorem Model.pointFunction [LawfulBEq α] (model : Model α) : model.PointFunction := by
  intro x x' equal
  rw [eq_of_beq equal]

/-- The residual at `x` as far as it is kept: what was found at a point with the same entries, or what
the base answers at `x`. -/
def ResidualCache.recall (cache : ResidualCache α) (base : ConstraintMeaning α) (x : List α) :
    Except (Error α) (List α) :=
  if cache.point.any (x == ·) then .ok cache.residual else Feasibility.residualMeaning base x

/-- For a base that is a function of the point, what is kept is what the base would answer. -/
theorem ResidualCache.Sound.recall_eq {cache : ResidualCache α} {base : Model α}
    (sound : cache.Sound base.constraintMeaning) (pointFunction : base.PointFunction) (x : List α) :
    cache.recall base.constraintMeaning x = Feasibility.residualMeaning base.constraintMeaning x := by
  unfold ResidualCache.recall
  split
  · next hit =>
      rcases (Option.any_eq_true _ _).1 hit with ⟨point, kept, equal⟩
      rw [pointFunction.residualMeaning_eq equal]
      exact (sound.point kept).symm
  · rfl

namespace Feasibility

variable {models : List (Model α)} {penalties : Table (Penalty α)} {node : Feasibility α}
  {base : Model α}

/-! ### The residual -/

/-- Ready stores from which a feasibility problem has the given residual at `x`. -/
structure Recalls (models : List (Model α)) (penalties : Table (Penalty α)) (node : Feasibility α)
    (base : Model α) (x : List α) (answer : Except (Error α) (List α)) (store : Store α) : Prop where
  ready : store.Ready models penalties
  recalled : (node.cache base.oracle store).recall base.constraintMeaning x = answer

/-- Only the feasibility problem itself changes what it keeps. -/
theorem Recalls.steady (family : Family models) {x : List α} {answer : Except (Error α) (List α)} :
    Store.Steady models penalties (Recalls models penalties node base x answer) where
  ready := Recalls.ready
  setTally := fun backend tally holds => ⟨holds.ready.setTally backend tally, holds.recalled⟩
  setScratch := fun member fits holds => ⟨holds.ready.setScratch family member fits, holds.recalled⟩

/-- What follows a change of the buffers starts from a store with the same residual at `x`, as long as
the change keeps the cache sound and the residual there as it is. -/
theorem modifyCache_bind {β : Type} {certain : Prop} {good : β → Prop} {x : List α}
    {known : Except (Error α) (List α)} {answer : Except (Error α) β}
    {change : ResidualCache α → ResidualCache α} {next : Unit → Eval α β} {store : Store α}
    (family : Family models) (member : .feasibility node base ∈ models)
    (holds : Recalls models penalties node base x known store)
    (sound : ∀ cache : ResidualCache α, cache.Sound base.constraintMeaning →
      (change cache).Sound base.constraintMeaning)
    (keeps : ∀ cache : ResidualCache α, cache.recall base.constraintMeaning x = known →
      (change cache).recall base.constraintMeaning x = known)
    (rest : ∀ later : Store α, Recalls models penalties node base x known later →
      AnswersAt (Recalls models penalties node base x known) certain (next ()) good answer later) :
    AnswersAt (Recalls models penalties node base x known) certain
      (node.modifyCache base.oracle change >>= next) good answer store := by
  refine .modify_bind (rest _ ⟨?_, ?_⟩)
  · exact holds.ready.setResidual family member (sound _ (holds.ready.cache member))
  · simpa [cache] using keeps _ holds.recalled

/-- A hit hands out what is kept. A miss asks the base twice, and keeps the outcome only if neither
question failed. Each of the three ways leaves a sound residual behind, and the same one at `x`. -/
theorem answers_recalled (family : Family models) (member : .feasibility node base ∈ models)
    {x : List α} {known : Except (Error α) (List α)} :
    Answers (Recalls models penalties node base x known) True (node.residual base.oracle x)
      (·.length = base.header.ncon) known := by
  intro store holds
  have baseMember : base ∈ models := family.bases member rfl
  have realizes : base.oracle.RealizesConstraints (Recalls models penalties node base x known)
      base.constraintMeaning :=
    Model.realizesConstraints_of_steady family (Recalls.steady family) baseMember
  have sound := holds.ready.cache member
  have recalled := holds.recalled
  unfold ResidualCache.recall at recalled
  apply AnswersAt.get_bind
  simp only []
  by_cases hit : (node.cache base.oracle store).point.any (x == ·)
  · rw [if_pos hit] at recalled
    rw [if_pos hit, ← recalled]
    exact .pure (recalled ▸ holds) (by simpa using sound.residual)
  · rw [if_neg hit] at recalled
    rw [if_neg hit]
    conv => arg 5; rw [← recalled, residualMeaning]
    have valuesAnswers := (realizes.constraints (.vector x)
      (some (.vector (node.cache base.oracle store).constraints)) store holds).certainly trivial
    rw [ConstraintMeaning.constraintsAt_some sound.constraints] at valuesAnswers
    apply valuesAnswers.bind
    rintro values later ⟨fills, valuesEq⟩ holds
    refine modifyCache_bind family member holds (fun cache kept => ?_) (fun cache same => same)
      fun next holds => ?_
    · exact { kept with constraints := fills.length }
    have projectedAnswers := (realizes.project (.vector values)
      (some (.vector (node.cache base.oracle store).residual)) next holds).certainly trivial
    rw [ConstraintMeaning.projectAt_some sound.residual] at projectedAnswers
    apply projectedAnswers.bind
    rintro projected afterwards ⟨fillsProjected, projectedEq⟩ holds
    have lengthValues := fills.length
    have lengthProjected := fillsProjected.length
    have length : (Vec.sub values projected).length = base.constraintMeaning.ncon := by
      simp only [Vec.length_sub]
      omega
    -- Both questions were answered, so the residual that is kept is the one at this point.
    have residualEq : residualMeaning base.constraintMeaning x = .ok (Vec.sub values projected) := by
      rw [residualMeaning, valuesEq]
      show (base.constraintMeaning.projectAt (.vector values) none >>= _) = _
      rw [projectedEq]
      rfl
    refine modifyCache_bind family member holds (fun cache kept => ?_) (fun cache _ => ?_)
      fun last holds => ?_
    · exact {
        constraints := kept.constraints
        residual := length
        point := by
          intro point same
          cases same
          exact residualEq }
    · rw [← recalled, ResidualCache.recall, residualEq, ite_self]
    · exact .pure holds (by simpa using length)

/-- Over a base that is a function of the point, the residual is one too. -/
theorem answers_residual (family : Family models) (member : .feasibility node base ∈ models)
    {x : List α} :
    Answers (Store.Ready models penalties) base.PointFunction (node.residual base.oracle x)
      (·.length = base.header.ncon) (residualMeaning base.constraintMeaning x) := by
  intro store ready
  have answers := answers_recalled (x := x) family member store ⟨ready, rfl⟩
  exact {
    keeps := answers.keeps.ready
    good := answers.good
    agrees := fun pointFunction =>
      (answers.agrees trivial).trans ((ready.cache member).recall_eq pointFunction x) }

/-! ### Questions about the infeasibility -/

/-- Ask for the loss of the residual at `x`. -/
def infeasibilityAt (node : Feasibility α) (base : ConstraintMeaning α) (x : Tensor α) :
    Except (Error α) α := do
  checkVectors node.header.nvar [x.shape]
  node.infeasibilityMeaning base x.entries

/-- Ask for the gradient of the loss at `x`. -/
def infeasibilityGradientAt (node : Feasibility α) (base : ConstraintMeaning α) (x : Tensor α)
    (out : Option (Tensor α)) : Except (Error α) (List α) := do
  checkVectors node.header.nvar [x.shape, (Oracle.buffer node.header.nvar out).shape]
  node.infeasibilityGradientMeaning base x.entries

/-- Ask for the largest absolute value in the residual at `x`. -/
def violationAt (node : Feasibility α) (base : ConstraintMeaning α) (x : Tensor α) :
    Except (Error α) α := do
  checkVectors node.header.nvar [x.shape]
  violationMeaning base x.entries

/-- Ask for half the scaled squared distance from the center. -/
def proximalDistanceAt (node : Feasibility α) (x : Tensor α) : Except (Error α) α := do
  checkVectors node.header.nvar [x.shape]
  return node.proximalDistanceMeaning x.entries

/-- Ask for half the squared distance from the center. -/
def unscaledDistanceAt (node : Feasibility α) (x : Tensor α) : Except (Error α) α := do
  checkVectors node.header.nvar [x.shape]
  let d := Vec.sub x.entries node.center
  return Scalar.half * Vec.dot d d

section Residual

variable {valid : Store α → Prop} {certain : Prop} {meaning : ConstraintMeaning α}

theorem answers_infeasibility {x : Tensor α}
    (residual : Answers valid certain (node.residual base.oracle x.entries)
      (·.length = base.header.ncon) (residualMeaning meaning x.entries)) :
    Answers valid certain (node.infeasibility base.oracle x) (fun _ => True)
      (node.infeasibilityAt meaning x) := by
  intro store holds
  apply AnswersAt.check_bind holds
  intro _
  apply (residual store holds).bind
  intro r later _ holds
  exact .pure holds trivial

/-- Where the loss has a direction, the base turns it into a gradient in the buffer at hand. Where it
has none, the buffer is cleared. -/
theorem answers_infeasibilityGradient (family : Family models)
    (steady : Store.Steady models penalties valid) (member : .feasibility node base ∈ models)
    {x : Tensor α}
    (residual : Answers valid certain (node.residual base.oracle x.entries)
      (·.length = base.header.ncon) (residualMeaning meaning x.entries))
    (adjoint : meaning.adjointProductAt = base.constraintMeaning.adjointProductAt)
    (out : Option (Tensor α)) :
    Answers valid certain (node.infeasibilityGradient base.oracle x out)
      (·.length = node.header.nvar) (node.infeasibilityGradientAt meaning x out) := by
  intro store holds
  have baseMember : base ∈ models := family.bases member rfl
  have realizes : base.oracle.RealizesConstraints valid base.constraintMeaning :=
    Model.realizesConstraints_of_steady family steady baseMember
  rcases family.regular member with ⟨nvar, _, _⟩
  apply AnswersAt.check_bind holds
  intro checked
  have lengthOut := Tensor.length_entries_of_shape (shapes_eq_of_check checked).2
  apply (residual store holds).bind
  intro r later _ holds
  have direction : AnswersAt valid certain (Eval.ofExcept (node.loss.direction node.huber r))
      (fun _ => True) (node.loss.direction node.huber r) later := .ofExcept holds fun _ _ => trivial
  apply direction.bind
  intro direction? next _ holds
  cases direction? with
  | none =>
      simp only []
      rw [Vec.zeroed_eq_zeros, lengthOut]
      exact .pure holds (Vec.length_zeros _)
  | some direction =>
      have room : (Oracle.buffer node.header.nvar out).entries.length =
          base.constraintMeaning.nvar := by
        simpa [nvar] using lengthOut
      have answers := realizes.adjointProduct (.vector x.entries) (.vector direction)
        (some (.vector (Oracle.buffer node.header.nvar out).entries)) next holds
      rw [ConstraintMeaning.adjointProductAt_some room, ← adjoint] at answers
      exact answers.mono (fun _ => trivial) fun _ fills => fills.length.trans (by simp [nvar])

theorem answers_violation {x : Tensor α}
    (residual : Answers valid certain (node.residual base.oracle x.entries)
      (·.length = base.header.ncon) (residualMeaning meaning x.entries)) :
    Answers valid certain (node.violation base.oracle x) (fun _ => True)
      (node.violationAt meaning x) := by
  intro store holds
  apply AnswersAt.check_bind holds
  intro _
  apply (residual store holds).bind
  intro r later _ holds
  exact .pure holds trivial

theorem answers_proximalDistance (x : Tensor α) :
    Answers valid certain (node.proximalDistance x) (fun _ => True) (node.proximalDistanceAt x) :=
  fun _ holds => .check_bind holds fun _ => .pure holds trivial

theorem answers_unscaledDistance (x : Tensor α) :
    Answers valid certain (node.unscaledDistance x) (fun _ => True) (node.unscaledDistanceAt x) :=
  fun _ holds => .check_bind holds fun _ => .pure holds trivial

/-! ### The smooth part -/

private theorem answers_objective {x : List α} (hx : x.length = node.header.nvar)
    (residual : Answers valid certain (node.residual base.oracle x)
      (·.length = base.header.ncon) (residualMeaning meaning x)) :
    Answers valid certain (node.objective base.oracle x) (fun _ => True)
      (node.objectiveMeaning meaning x) := by
  intro store holds
  have passes : node.infeasibilityAt meaning (.vector x) = node.infeasibilityMeaning meaning x := by
    simp only [infeasibilityAt, Tensor.shape_vector, hx, checkVectors_self]
    rfl
  have distance : node.proximalDistanceAt (.vector x) = .ok (node.proximalDistanceMeaning x) := by
    simp only [proximalDistanceAt, Tensor.shape_vector, hx, checkVectors_self]
    rfl
  rw [objectiveMeaning, ← passes]
  apply (answers_infeasibility (x := .vector x) residual store holds).bind
  intro value later _ holds
  split
  · have answers : AnswersAt valid certain (node.proximalDistance (.vector x)) (fun _ => True)
        (node.proximalDistanceAt (.vector x)) later := answers_proximalDistance _ later holds
    rw [distance] at answers
    exact answers.bind fun distance next _ holds => .pure holds trivial
  · exact .pure holds trivial

private theorem answers_gradient (family : Family models)
    (steady : Store.Steady models penalties valid) (member : .feasibility node base ∈ models)
    {x out : List α} (hx : x.length = node.header.nvar) (hout : out.length = node.header.nvar)
    (residual : Answers valid certain (node.residual base.oracle x)
      (·.length = base.header.ncon) (residualMeaning meaning x))
    (adjoint : meaning.adjointProductAt = base.constraintMeaning.adjointProductAt) :
    Answers valid certain (node.gradient base.oracle x out) (·.length = node.header.nvar)
      (node.gradientMeaning meaning x) := by
  intro store holds
  have passes : node.infeasibilityGradientAt meaning (.vector x) (some (.vector out)) =
      node.infeasibilityGradientMeaning meaning x := by
    simp only [infeasibilityGradientAt, Tensor.shape_vector, Oracle.shape_buffer_vector hout, hx,
      checkVectors_self_self]
    rfl
  rcases family.regular member with ⟨nvar, _, center, scaling⟩
  rw [gradientMeaning, ← passes]
  apply (answers_infeasibilityGradient (x := .vector x) family steady member residual adjoint _ store
    holds).bind
  intro slope later length holds
  split
  · exact .pure holds (by simp [length, hx, center, scaling, nvar])
  · exact .pure holds length

/-- The smooth part of a feasibility problem asks for the residual and for products with the transposed
Jacobian, so it answers as these do. -/
theorem realizesSmooth (family : Family models) (steady : Store.Steady models penalties valid)
    (member : .feasibility node base ∈ models) {x : List α} (hx : x.length = node.header.nvar)
    (residual : Answers valid certain (node.residual base.oracle x)
      (·.length = base.header.ncon) (residualMeaning meaning x))
    (adjoint : meaning.adjointProductAt = base.constraintMeaning.adjointProductAt) :
    (node.hooks base.oracle).RealizesSmoothAt valid certain (node.smoothMeaning meaning) x where
  objective := answers_objective hx residual
  gradient := fun hout => answers_gradient family steady member hx hout residual adjoint
  objectiveGradient := by
    intro out hout store holds
    apply (answers_objective hx residual store holds).bind
    intro value later _ holds
    apply (answers_gradient family steady member hx hout residual adjoint later holds).bind
    intro slope next length holds
    exact .pure holds length

end Residual

end Feasibility

end CompositeModels
