/-
Module: CompositeModels.Proofs.Restoring
Purpose: Which operations leave the buffer of their caller as it was when they fail. Those of the
  constraints and of their set do, in every model: whatever they hand their buffer to has returned
  before they change it themselves. These are the operations that a reformulation lets write into the
  buffers that it keeps for itself, so a failure of its base leaves those buffers as they were. A
  gradient is not such an operation: that of an augmented Lagrangian was written in part when its
  correction fails.
Main exports: InPlace.Restores, WriteHooks.Restoring, Writer.Restoring, WriteHooks.Restoring.writer,
  Model.restoring_writer
-/
import CompositeModels.Proofs.InPlace

namespace CompositeModels

variable {α β γ : Type}

namespace InPlace

/-- If the computation fails, the buffer holds what it held before. -/
def Restores (program : InPlace α β) : Prop :=
  ∀ before after cause, program.run before = .error cause after → after.buffer = before.buffer

/-- The computation does not fail. -/
def Succeeds (program : InPlace α β) : Prop :=
  ∀ before, ∃ value after, program.run before = .ok value after

theorem succeeds_pure (value : β) : Succeeds (pure value : InPlace α β) :=
  fun before => ⟨value, before, rfl⟩

theorem succeeds_change (f : List α → List α) : Succeeds (change f) :=
  fun before => ⟨(), { before with buffer := f before.buffer }, rfl⟩

theorem succeeds_write (content : List α) : Succeeds (write content) :=
  succeeds_change fun _ => content

namespace Restores

theorem of_succeeds {program : InPlace α β} (succeeds : Succeeds program) : Restores program := by
  intro before after cause run
  obtain ⟨value, later, ended⟩ := succeeds before
  cases run.symm.trans ended

theorem throw {cause : Error α} : Restores (throw cause : InPlace α β) := by
  intro before after _ run
  cases run
  rfl

/-- Nothing is written before the rest starts. -/
theorem lift_bind {program : Eval α β} {next : β → InPlace α γ}
    (rest : ∀ value, Restores (next value)) : Restores (lift program >>= next) := by
  intro before after cause run
  cases begun : program.run before.store with
  | ok value later =>
      rw [run_bind_of_ok (run_lift_of_ok begun before.buffer)] at run
      have kept := rest value ⟨later, before.buffer⟩ _ _ run
      exact kept
  | error other later =>
      cases (run_bind_of_error (run_lift_of_error begun before.buffer)).symm.trans run
      rfl

theorem shape_bind {next : Shape → InPlace α β} (rest : ∀ shape, Restores (next shape)) :
    Restores (shape >>= next) :=
  fun before => rest [before.buffer.length] before

/-- Only the first part can fail. -/
theorem bind {first : InPlace α β} {next : β → InPlace α γ} (start : Restores first)
    (rest : ∀ value, Succeeds (next value)) : Restores (first >>= next) := by
  intro before after cause run
  cases begun : first.run before with
  | ok value middle =>
      obtain ⟨result, last, ended⟩ := rest value middle
      cases run.symm.trans ((run_bind_of_ok begun).trans ended)
  | error other middle =>
      cases (run_bind_of_error begun).symm.trans run
      exact start before _ _ begun

/-- A result is written once it is there. -/
theorem fill (program : Eval α (List α)) : Restores (fill program) :=
  .lift_bind fun content => .of_succeeds (succeeds_write content)

theorem ite {condition : Prop} [Decidable condition] {first second : InPlace α β}
    (yes : Restores first) (no : Restores second) : Restores (if condition then first else second) := by
  split
  · exact yes
  · exact no

/-- The blocks of a buffer whose first block was restored make up the buffer. -/
theorem onBlocks {n : Nat} {first : InPlace α β} {second : InPlace α Unit} (start : Restores first)
    (rest : Succeeds second) : Restores (onBlocks n first second) := by
  intro before after cause run
  have unfolded : InPlace.onBlocks n first second before = .error cause after := run
  rw [InPlace.onBlocks] at unfolded
  cases begun : first.run ⟨before.store, before.buffer.take n⟩ with
  | ok value middle =>
      obtain ⟨⟨⟩, last, ended⟩ := rest ⟨middle.store, before.buffer.drop n⟩
      simp only [begun, ended] at unfolded
      cases unfolded
  | error other middle =>
      simp only [begun] at unfolded
      cases unfolded
      rw [start _ _ _ begun, List.take_append_drop]

end Restores

end InPlace

open InPlace (Restores succeeds_pure succeeds_change succeeds_write)

/-! ### Layers -/

/-- Hooks for the constraints and the set that leave the buffer as it was when they fail. -/
structure WriteHooks.Restoring (writes : WriteHooks α) : Prop where
  constraints : ∀ x, Restores (writes.constraints x)
  objectiveConstraints : ∀ x, Restores (writes.objectiveConstraints x)
  jacobianProduct : ∀ x v, Restores (writes.jacobianProduct x v)
  adjointProduct : ∀ x v, Restores (writes.adjointProduct x v)
  project : ∀ v, Restores (writes.project v)

/-- Operations on the constraints and the set that leave the buffer as it was when they fail. -/
structure Writer.Restoring [Scalar α] (writer : Writer α) : Prop where
  constraints : ∀ x out, Restores (writer.constraints x out)
  objectiveConstraints : ∀ x out, Restores (writer.objectiveConstraints x out)
  jacobianProduct : ∀ x v out, Restores (writer.jacobianProduct x v out)
  adjointProduct : ∀ x v out, Restores (writer.adjointProduct x v out)
  project : ∀ v out, Restores (writer.project v out)

theorem WriteHooks.Restoring.writer [Scalar α] {writer : Writer α}
    (restoring : writer.writes.Restoring) : writer.Restoring where
  constraints x _ := .lift_bind fun _ => .lift_bind fun _ =>
    .ite (restoring.constraints x.entries) (.of_succeeds (succeeds_pure ()))
  objectiveConstraints x _ := .lift_bind fun _ => .lift_bind fun _ =>
    restoring.objectiveConstraints x.entries
  jacobianProduct x v _ := .lift_bind fun _ => .lift_bind fun _ =>
    .ite (restoring.jacobianProduct x.entries v.entries) (.of_succeeds (succeeds_pure ()))
  adjointProduct x v _ := .lift_bind fun _ => .lift_bind fun _ =>
    .ite (restoring.adjointProduct x.entries v.entries) (.of_succeeds (succeeds_change _))
  project v _ := .lift_bind fun _ =>
    .ite (restoring.project v.entries) (.of_succeeds (succeeds_pure ()))

/-- The constraints are the last thing that can fail. -/
theorem InPlace.Restores.separateObjectiveConstraints {header : Header α}
    {objective : List α → Eval α α} {constraints : List α → InPlace α Unit}
    (restores : ∀ x, Restores (constraints x)) (x : List α) :
    Restores (WriteHooks.separateObjectiveConstraints header objective constraints x) :=
  .lift_bind fun value =>
    .ite (.bind (restores x) fun _ => succeeds_pure value) (.of_succeeds (succeeds_pure value))

theorem BackendLeaf.restoring [Scalar α] (leaf : BackendLeaf α) : leaf.writes.Restoring where
  constraints _ := .fill _
  objectiveConstraints := .separateObjectiveConstraints fun _ => .fill _
  jacobianProduct _ _ := .fill _
  adjointProduct _ _ := .fill _
  project _ := .of_succeeds (succeeds_write _)

theorem ExpressionLeaf.restoring [Elementary α] (leaf : ExpressionLeaf α) :
    leaf.writes.Restoring where
  constraints _ := .of_succeeds (succeeds_write _)
  objectiveConstraints := .separateObjectiveConstraints fun _ => .of_succeeds (succeeds_write _)
  jacobianProduct _ _ := .of_succeeds (succeeds_write _)
  adjointProduct _ _ := .of_succeeds (succeeds_write _)
  project _ := .throw

section Reformulations

variable [Scalar α] {base : Writer α}

theorem Slack.restores_constraints (restoring : base.Restoring) (x : List α) :
    Restores (writeConstraints base x) :=
  .shape_bind fun _ => .bind (restoring.constraints _ _) fun _ => succeeds_change _

theorem Slack.restoring (restoring : base.Restoring) (header : Header α) :
    (writes base header).Restoring where
  constraints := restores_constraints restoring
  objectiveConstraints := .separateObjectiveConstraints (restores_constraints restoring)
  jacobianProduct _ _ := .shape_bind fun _ =>
    .bind (restoring.jacobianProduct _ _ _) fun _ => succeeds_change _
  adjointProduct _ _ :=
    .onBlocks (.shape_bind fun _ => restoring.adjointProduct _ _ _) (succeeds_write _)
  project _ := .of_succeeds (succeeds_change _)

theorem ProximalPoint.restoring (restoring : base.Restoring) (node : ProximalPoint α) :
    (node.writes base).Restoring where
  constraints _ := .shape_bind fun _ => restoring.constraints _ _
  objectiveConstraints := .separateObjectiveConstraints fun _ =>
    .shape_bind fun _ => restoring.constraints _ _
  jacobianProduct _ _ := .shape_bind fun _ => restoring.jacobianProduct _ _ _
  adjointProduct _ _ := .shape_bind fun _ => restoring.adjointProduct _ _ _
  project _ := .shape_bind fun _ => restoring.project _ _

theorem AugmentedLagrangian.restoring (node : AugmentedLagrangian α) (base : Writer α) :
    (node.writes base).Restoring where
  constraints _ := .of_succeeds (succeeds_pure ())
  objectiveConstraints := .separateObjectiveConstraints fun _ => .of_succeeds (succeeds_pure ())
  jacobianProduct _ _ := .of_succeeds (succeeds_pure ())
  adjointProduct _ _ := .of_succeeds (succeeds_change _)
  project _ := .throw

/-- When the correction fails, the buffer holds the gradient of the base. -/
theorem AugmentedLagrangian.run_writeGradient_of_pullback_error {node : AugmentedLagrangian α}
    (realizes : base.Realizes) {x out values estimate content : List α} {term : α} {cause : Error α}
    {store evaluated projected written later : Store α}
    (valuesRun : (node.constraintValues base.toOracle x).run store = .ok values evaluated)
    (termRun : (node.penaltyTerm base.toOracle values).run evaluated = .ok (term, estimate) projected)
    (gradientRun : (base.toOracle.gradient (.vector x) (some (.vector out))).run projected =
      .ok content written)
    (failed : (node.pullback base.toOracle x estimate).run written = .error cause later) :
    (node.writeGradient base x).run ⟨store, out⟩ = .error cause ⟨later, content⟩ := by
  rw [writeGradient, run_bind_of_ok (InPlace.run_lift_of_ok valuesRun out),
    run_bind_of_ok (InPlace.run_lift_of_ok termRun out)]
  have wrote := (realizes.gradient (.vector x) (.vector out)).returns gradientRun
  exact (run_bind_of_ok wrote).trans
    (run_bind_of_error (InPlace.run_lift_of_error failed content))

theorem Feasibility.restoring (node : Feasibility α) (base : Writer α) :
    (node.writes base).Restoring where
  constraints _ := .of_succeeds (succeeds_pure ())
  objectiveConstraints := .separateObjectiveConstraints fun _ => .of_succeeds (succeeds_pure ())
  jacobianProduct _ _ := .of_succeeds (succeeds_pure ())
  adjointProduct _ _ := .of_succeeds (succeeds_change _)
  project _ := .throw

theorem Tailored.restoring (restoring : base.Restoring) (node : Tailored α) :
    (node.writes base).Restoring where
  constraints _ := .shape_bind fun _ => restoring.constraints _ _
  objectiveConstraints := .separateObjectiveConstraints fun _ =>
    .shape_bind fun _ => restoring.constraints _ _
  jacobianProduct _ _ := .shape_bind fun _ => restoring.jacobianProduct _ _ _
  adjointProduct _ _ := .shape_bind fun _ => restoring.adjointProduct _ _ _
  project v := by
    show Restores (node.writeProjection base v)
    unfold writeProjection
    cases node.constraintSet with
    | none => exact .throw
    | some set =>
        cases set with
        | ofBase => exact .shape_bind fun _ => restoring.project _ _
        | projectedBy project => exact .fill _

end Reformulations

/-! ### Stacks -/

/-- In every model the constraints, their products and the projection leave a buffer as it was when they
fail. -/
theorem Model.restoring_writer [Elementary α] (model : Model α) : model.writer.Restoring := by
  induction model with
  | backend leaf => exact leaf.restoring.writer
  | expression leaf => exact leaf.restoring.writer
  | slack node base ih => exact (Slack.restoring ih node.header).writer
  | proximalPoint node base ih => exact (node.restoring ih).writer
  | augmentedLagrangian node base => exact (node.restoring base.writer).writer
  | feasibility node base => exact (node.restoring base.writer).writer
  | tailored node base ih => exact (node.restoring ih).writer

end CompositeModels
