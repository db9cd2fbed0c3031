/-
Module: CompositeModels.Proofs.Regular
Purpose: What holds of models that were built, and of the store while they are used. A family of models
  is closed under bases and gives each serial number to one model only. A store is ready for a family
  when its buffers have the lengths of their models and every residual that is kept is the residual at
  the point that is kept with it.
Main exports: Backend.FillsBuffers, Model.Regular, Lineage, Family, Penalty.Fits, ResidualCache.Sound,
  Store.Ready, Store.Ready.setScratch, Store.Ready.setResidual, Store.Steady
-/
import CompositeModels.Proofs.Answers
import CompositeModels.Proofs.Meaning.Stack

namespace CompositeModels

variable {α : Type}

/-- A backend writes vectors of its declared lengths into the buffers it is given. -/
structure Backend.FillsBuffers (backend : Backend α) (nvar ncon : Nat) : Prop where
  gradient : ∀ {x g}, x.length = nvar → backend.gradient x = .ok g → g.length = nvar
  constraints : ∀ {x c}, x.length = nvar → backend.constraints x = .ok c → c.length = ncon
  jacobianProduct : ∀ {x v p}, x.length = nvar → v.length = nvar →
    backend.jacobianProduct x v = .ok p → p.length = ncon
  adjointProduct : ∀ {x v p}, x.length = nvar → v.length = ncon →
    backend.adjointProduct x v = .ok p → p.length = nvar

/-- A projection writes a vector as long as the one that it projects. -/
def ConstraintSet.KeepsLength : ConstraintSet α → Prop
  | .ofBase => True
  | .projectedBy project => ∀ v p, project v = .ok p → p.length = v.length

/-- The proximal points of a term are as long as the points they belong to. -/
def ProximableTerm.KeepsLength (term : ProximableTerm α) : Prop :=
  ∀ x step, (term.proximal x step).length = x.length

theorem ConstraintSet.keepsLength_zero [Scalar α] : (zero : ConstraintSet α).KeepsLength := by
  intro v p projected
  cases projected
  exact Vec.length_zeroed v

theorem ConstraintSet.keepsLength_ball [Scalar α] (radius : α) : (ball radius).KeepsLength := by
  intro v p projected
  cases projected
  split
  · rfl
  · exact Vec.length_scale _ v

theorem ProximableTerm.keepsLength_absoluteSum [Scalar α] (factor : α) :
    (absoluteSum factor).KeepsLength :=
  fun _ _ => List.length_map _

/-- Penalty data for `n` constraints: positive parameters, and derived terms that belong to them. -/
structure Penalty.Fits [Scalar α] (penalty : Penalty α) (n : Nat) : Prop where
  mu : penalty.mu.shape = [n]
  y : penalty.y.shape = [n]
  shiftShape : penalty.shift.shape = [n]
  positive : ∀ m ∈ penalty.mu.entries, 0 < m
  shift : penalty.shift.entries = Vec.mul penalty.mu.entries penalty.y.entries
  offset : penalty.offset =
    Scalar.half * Vec.total (Vec.mul penalty.shift.entries penalty.y.entries)

/-- The buffers of an augmented Lagrangian have the lengths of its base. -/
structure Scratch.Fits (scratch : Scratch α) (nvar ncon : Nat) : Prop where
  constraints : scratch.constraints.length = ncon
  residual : scratch.residual.length = ncon
  multipliers : scratch.multipliers.length = ncon
  pullback : scratch.pullback.length = nvar

/-- The buffers of a feasibility problem have the lengths of its base, and the residual that is kept is
that at the point that is kept. -/
structure ResidualCache.Sound [Scalar α] (cache : ResidualCache α) (base : ConstraintMeaning α) :
    Prop where
  constraints : cache.constraints.length = base.ncon
  residual : cache.residual.length = base.ncon
  point : ∀ {x}, cache.point = some x → Feasibility.residualMeaning base x = .ok cache.residual

namespace Model

/-- The serial number under which a model is known to the store. -/
def serial? : Model α → Option Nat
  | .backend leaf => some leaf.serial
  | .expression _ => none
  | .slack node _ => some node.serial
  | .proximalPoint node _ => some node.serial
  | .augmentedLagrangian node _ => some node.serial
  | .feasibility node _ => some node.serial
  | .tailored node _ => some node.serial

/-- The data of a model belong together and to the dimensions of its base. -/
def Regular [Scalar α] : Model α → Prop
  | .backend leaf =>
      leaf.backend.FillsBuffers leaf.header.nvar leaf.header.ncon ∧
        leaf.variableBox.length = leaf.header.nvar ∧ leaf.constraintBox.length = leaf.header.ncon
  | .expression leaf => leaf.constraints.length = leaf.header.ncon
  | .slack node base =>
      node.header.nvar = base.header.nvar + base.header.ncon ∧ node.header.ncon = base.header.ncon
  | .proximalPoint node base =>
      node.header.nvar = base.header.nvar ∧ node.header.ncon = base.header.ncon ∧
        node.anchor.length = base.header.nvar
  | .augmentedLagrangian node base =>
      node.header.nvar = base.header.nvar ∧ node.header.ncon = 0 ∧
        node.initialPenalty.Fits base.header.ncon
  | .feasibility node base =>
      node.header.nvar = base.header.nvar ∧ node.header.ncon = 0 ∧
        node.center.length = base.header.nvar ∧ node.scaling.length = base.header.nvar
  | .tailored node _ =>
      (∀ constraintSet, node.constraintSet = some constraintSet → constraintSet.KeepsLength) ∧
        ∀ term, node.term = some term → term.KeepsLength

end Model

/-- Models that were built on each other: with a model its base is among them, and no two of them have
the same serial number. -/
structure Lineage (models : List (Model α)) : Prop where
  bases : ∀ {model node base}, model ∈ models → model.wrapped? = some (node, base) → base ∈ models
  distinct : ∀ {first second serial}, first ∈ models → second ∈ models →
    first.serial? = some serial → second.serial? = some serial → first = second

/-- Models that were built together: with a model its base belongs to them, and no two of them have the
same serial number. -/
structure Family [Scalar α] (models : List (Model α)) : Prop where
  bases : ∀ {model node base}, model ∈ models → model.wrapped? = some (node, base) → base ∈ models
  distinct : ∀ {first second serial}, first ∈ models → second ∈ models →
    first.serial? = some serial → second.serial? = some serial → first = second
  regular : ∀ {model}, model ∈ models → model.Regular

theorem Family.lineage [Scalar α] {models : List (Model α)} (family : Family models) :
    Lineage models :=
  ⟨family.bases, family.distinct⟩

/-- A store in which the models of a family can be used, with the given penalty data in force. -/
structure Store.Ready [Elementary α] (models : List (Model α)) (penalties : Table (Penalty α))
    (store : Store α) : Prop where
  unrevised : ∀ serial, store.revisions.get? serial = none
  inForce : store.penalties = penalties
  issued : ∀ {model serial}, model ∈ models → model.serial? = some serial → serial < store.next
  unused : ∀ {serial}, store.next ≤ serial → store.residuals.get? serial = none ∧
    store.scratch.get? serial = none ∧ store.penalties.get? serial = none
  fits : ∀ {node base}, .augmentedLagrangian node base ∈ models →
    (node.penaltyIn penalties).Fits base.header.ncon
  scratch : ∀ {node base}, .augmentedLagrangian node base ∈ models →
    (node.scratch base.oracle store).Fits base.header.nvar base.header.ncon
  cache : ∀ {node base}, .feasibility node base ∈ models →
    (node.cache base.oracle store).Sound base.constraintMeaning

namespace Store.Ready

variable [Elementary α] {models : List (Model α)} {penalties : Table (Penalty α)} {store : Store α}

/-- A serial number that was not handed out yet belongs to no model. -/
theorem ne_of_fresh (ready : store.Ready models penalties) {model : Model α} {known serial : Nat}
    (member : model ∈ models) (same : model.serial? = some known) (fresh : store.next ≤ serial) :
    serial ≠ known := by
  have issued := ready.issued member same
  omega

/-- Counting a call of a backend leaves everything else alone. -/
theorem setTally (ready : store.Ready models penalties) (backend : Nat) (tally : Tally) :
    (store.setTally backend tally).Ready models penalties where
  unrevised := ready.unrevised
  inForce := ready.inForce
  issued := ready.issued
  unused := ready.unused
  fits := ready.fits
  scratch := ready.scratch
  cache := ready.cache

/-- An augmented Lagrangian may fill its buffers, since no other model has its serial number. -/
theorem setScratch (family : Family models) (ready : store.Ready models penalties)
    {node : AugmentedLagrangian α} {base : Model α}
    (member : .augmentedLagrangian node base ∈ models) {scratch : Scratch α}
    (fits : scratch.Fits base.header.nvar base.header.ncon) :
    Store.Ready models penalties
      { store with scratch := store.scratch.set node.serial scratch } where
  unrevised := ready.unrevised
  inForce := ready.inForce
  issued := ready.issued
  unused := by
    intro serial fresh
    have different : serial ≠ node.serial := ready.ne_of_fresh member rfl fresh
    obtain ⟨residuals, scratches, penaltyData⟩ := ready.unused fresh
    refine ⟨residuals, ?_, penaltyData⟩
    rw [Table.get?_set_of_ne _ _ different]
    exact scratches
  fits := ready.fits
  scratch := by
    intro other otherBase otherMember
    by_cases same : other.serial = node.serial
    · have models : Model.augmentedLagrangian other otherBase = .augmentedLagrangian node base :=
        family.distinct otherMember member (congrArg some same) rfl
      cases models
      simpa [AugmentedLagrangian.scratch] using fits
    · simpa [AugmentedLagrangian.scratch, Table.get?_set_of_ne _ _ same] using
        ready.scratch otherMember
  cache := ready.cache

/-- A feasibility problem may keep a residual that is sound, since no other model has its serial
number. -/
theorem setResidual (family : Family models) (ready : store.Ready models penalties)
    {node : Feasibility α} {base : Model α} (member : .feasibility node base ∈ models)
    {cache : ResidualCache α} (sound : cache.Sound base.constraintMeaning) :
    Store.Ready models penalties
      { store with residuals := store.residuals.set node.serial cache } where
  unrevised := ready.unrevised
  inForce := ready.inForce
  issued := ready.issued
  unused := by
    intro serial fresh
    have different : serial ≠ node.serial := ready.ne_of_fresh member rfl fresh
    obtain ⟨residuals, scratches, penaltyData⟩ := ready.unused fresh
    refine ⟨?_, scratches, penaltyData⟩
    rw [Table.get?_set_of_ne _ _ different]
    exact residuals
  fits := ready.fits
  scratch := ready.scratch
  cache := by
    intro other otherBase otherMember
    by_cases same : other.serial = node.serial
    · have models : Model.feasibility other otherBase = .feasibility node base :=
        family.distinct otherMember member (congrArg some same) rfl
      cases models
      simpa [Feasibility.cache] using sound
    · simpa [Feasibility.cache, Table.get?_set_of_ne _ _ same] using ready.cache otherMember

end Store.Ready

/-- A condition on ready stores that is not touched by what models do below a kept residual: they count
calls of backends and fill the buffers of augmented Lagrangians. -/
structure Store.Steady [Elementary α] (models : List (Model α)) (penalties : Table (Penalty α))
    (valid : Store α → Prop) : Prop where
  ready : ∀ {store}, valid store → store.Ready models penalties
  setTally : ∀ {store} (backend : Nat) (tally : Tally), valid store →
    valid (store.setTally backend tally)
  setScratch : ∀ {store node base scratch}, .augmentedLagrangian node base ∈ models →
    scratch.Fits base.header.nvar base.header.ncon → valid store →
    valid { store with scratch := store.scratch.set node.serial scratch }

theorem Store.Ready.steady [Elementary α] {models : List (Model α)} {penalties : Table (Penalty α)}
    (family : Family models) : Store.Steady models penalties (Store.Ready models penalties) where
  ready := id
  setTally := fun backend tally ready => ready.setTally backend tally
  setScratch := fun member fits ready => ready.setScratch family member fits

end CompositeModels
