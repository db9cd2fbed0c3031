/-
Module: CompositeModels.Proofs.Frame
Purpose: What evaluations leave alone. At every depth of a stack they count calls of backends and fill
  buffers, and that is all: serial numbers, backends, penalty data, closed models, the log and the
  number of times that a backend was closed stay as they were, also after a failure.
Main exports: Store.SameFrame, Eval.Leads, Eval.KeepsFrame, Hooks.Quiet, Oracle.Quiet, Model.quiet,
  Oracle.Quiet.call, Feasibility.keepsFrame_ask, AugmentedLagrangian.keepsFrame_multiplierEstimate
-/
import Mathlib.Order.Defs.Unbundled
import CompositeModels.Proofs.Calls

namespace CompositeModels

variable {α β γ : Type}

/-! ### Stores -/

/-- Two stores that differ in the counts of evaluations and in buffers only. -/
structure Store.SameFrame (before after : Store α) : Prop where
  next : after.next = before.next
  revisions : after.revisions = before.revisions
  penalties : after.penalties = before.penalties
  closed : after.closed = before.closed
  log : after.log = before.log
  closings : ∀ backend, (after.tally backend).closed = (before.tally backend).closed

namespace Store.SameFrame

theorem refl (store : Store α) : store.SameFrame store := ⟨rfl, rfl, rfl, rfl, rfl, fun _ => rfl⟩

theorem trans {first second third : Store α} (before : first.SameFrame second)
    (after : second.SameFrame third) : first.SameFrame third where
  next := after.next.trans before.next
  revisions := after.revisions.trans before.revisions
  penalties := after.penalties.trans before.penalties
  closed := after.closed.trans before.closed
  log := after.log.trans before.log
  closings := fun backend => (after.closings backend).trans (before.closings backend)

instance isPreorder : IsPreorder (Store α) SameFrame where
  refl := refl
  trans := fun _ _ _ => trans

end Store.SameFrame

@[simp] theorem Store.tally_setTally_self (store : Store α) (backend : Nat) (tally : Tally) :
    (store.setTally backend tally).tally backend = tally := by
  simp [Store.tally, Store.setTally]

theorem Store.tally_setTally_of_ne (store : Store α) {backend other : Nat} (tally : Tally)
    (different : other ≠ backend) :
    (store.setTally backend tally).tally other = store.tally other := by
  simp [Store.tally, Store.setTally, Table.get?_set_of_ne _ _ different]

@[simp] theorem Tally.closed_record (tally : Tally) (evaluation : Evaluation) :
    (tally.record evaluation).closed = tally.closed := by
  cases evaluation <;> rfl

theorem Store.sameFrame_record (store : Store α) (backend : Nat) (evaluation : Evaluation) :
    store.SameFrame (store.setTally backend ((store.tally backend).record evaluation)) where
  next := rfl
  revisions := rfl
  penalties := rfl
  closed := rfl
  log := rfl
  closings := by
    intro other
    by_cases same : other = backend
    · subst same
      simp
    · rw [Store.tally_setTally_of_ne _ _ same]

/-! ### Computations -/

/-- Whatever comes of the computation, the store that it leaves is related to the one that it found. -/
def Eval.Leads (related : Store α → Store α → Prop) (program : Eval α β) : Prop :=
  ∀ store, related store (program.after store)

namespace Eval.Leads

theorem modify {related : Store α → Store α → Prop} {change : Store α → Store α}
    (leads : ∀ store, related store (change store)) :
    Leads related (modify change : Eval α PUnit) := leads

theorem read {related : Store α → Store α → Prop} {next : Store α → Eval α β}
    (rest : ∀ store, Leads related (next store)) : Leads related (get >>= next) :=
  fun store => rest store store

theorem ite {related : Store α → Store α → Prop} {condition : Prop} {decided : Decidable condition}
    {first second : Eval α β} (yes : Leads related first) (no : Leads related second) :
    Leads related (if condition then first else second) := by
  split
  · exact yes
  · exact no

variable {related : Store α → Store α → Prop} [IsPreorder (Store α) related]

theorem pure {value : β} : Leads related (pure value : Eval α β) :=
  fun store => refl_of related store

theorem throw {cause : Error α} : Leads related (throw cause : Eval α β) :=
  fun store => refl_of related store

theorem ofExcept (answer : Except (Error α) β) : Leads related (ofExcept answer) := by
  cases answer with
  | ok value => exact pure
  | error cause => exact throw

theorem check {expected : Nat} {shapes : List Shape} :
    Leads related (checkVectors expected shapes : Eval α Unit) := ofExcept _

theorem bind {program : Eval α β} {next : β → Eval α γ} (first : Leads related program)
    (rest : ∀ value, Leads related (next value)) : Leads related (program >>= next) := by
  intro store
  have leads := first store
  cases run : program.run store with
  | ok value later =>
      rw [after_of_run_ok run] at leads
      rw [after, run_bind_of_ok run]
      exact trans_of related leads (rest value later)
  | error cause later =>
      rw [after_of_run_error run] at leads
      rw [after_of_run_error (run_bind_of_error run)]
      exact leads

theorem requirePositiveStep [Scalar α] {step : α} :
    Leads related (Oracle.requirePositiveStep step) :=
  .ite .pure .throw

end Eval.Leads

/-- What evaluations leave alone is left alone. -/
abbrev Eval.KeepsFrame (program : Eval α β) : Prop := Leads Store.SameFrame program

open Eval (KeepsFrame)

/-! ### Hooks and operations -/

/-- Hooks that only count evaluations and fill buffers. -/
structure Hooks.Quiet (hooks : Hooks α) : Prop where
  objective : ∀ x, KeepsFrame (hooks.objective x)
  gradient : ∀ x out, KeepsFrame (hooks.gradient x out)
  objectiveGradient : ∀ x out, KeepsFrame (hooks.objectiveGradient x out)
  constraints : ∀ x out, KeepsFrame (hooks.constraints x out)
  objectiveConstraints : ∀ x out, KeepsFrame (hooks.objectiveConstraints x out)
  jacobianProduct : ∀ x v out, KeepsFrame (hooks.jacobianProduct x v out)
  adjointProduct : ∀ x v out, KeepsFrame (hooks.adjointProduct x v out)
  project : ∀ v out, KeepsFrame (hooks.project v out)
  distance : ∀ v, KeepsFrame (hooks.distance v)
  proximal : ∀ x step out, KeepsFrame (hooks.proximal x step out)
  proximalWithValue : ∀ x step out, KeepsFrame (hooks.proximalWithValue x step out)

/-- Operations that only count evaluations and fill buffers. -/
structure Oracle.Quiet [Scalar α] (oracle : Oracle α) : Prop where
  objective : ∀ x, KeepsFrame (oracle.objective x)
  gradient : ∀ x out, KeepsFrame (oracle.gradient x out)
  objectiveGradient : ∀ x out, KeepsFrame (oracle.objectiveGradient x out)
  constraints : ∀ x out, KeepsFrame (oracle.constraints x out)
  objectiveConstraints : ∀ x out, KeepsFrame (oracle.objectiveConstraints x out)
  jacobianProduct : ∀ x v out, KeepsFrame (oracle.jacobianProduct x v out)
  adjointProduct : ∀ x v out, KeepsFrame (oracle.adjointProduct x v out)
  project : ∀ v out, KeepsFrame (oracle.project v out)
  distance : ∀ v, KeepsFrame (oracle.distance v)
  proximal : ∀ x step out, KeepsFrame (oracle.proximal x step out)
  proximalWithValue : ∀ x step out, KeepsFrame (oracle.proximalWithValue x step out)

/-- Checks read their arrays only. -/
theorem Hooks.Quiet.oracle [Scalar α] {oracle : Oracle α} (quiet : oracle.hooks.Quiet) :
    oracle.Quiet where
  objective := fun _ => .bind .check fun _ => quiet.objective _
  gradient := fun _ _ => .bind .check fun _ => quiet.gradient _ _
  objectiveGradient := fun _ _ => .bind .check fun _ => quiet.objectiveGradient _ _
  constraints := fun _ _ => .bind .check fun _ => .bind .check fun _ =>
    .ite (quiet.constraints _ _) .pure
  objectiveConstraints := fun _ _ => .bind .check fun _ => .bind .check fun _ =>
    quiet.objectiveConstraints _ _
  jacobianProduct := fun _ _ _ => .bind .check fun _ => .bind .check fun _ =>
    .ite (quiet.jacobianProduct _ _ _) .pure
  adjointProduct := fun _ _ _ => .bind .check fun _ => .bind .check fun _ =>
    .ite (quiet.adjointProduct _ _ _) .pure
  project := fun _ _ => .bind .check fun _ => .ite (quiet.project _ _) .pure
  distance := fun _ => .bind .check fun _ => .ite (quiet.distance _) .pure
  proximal := fun _ _ _ => .bind .check fun _ => .bind .requirePositiveStep fun _ =>
    quiet.proximal _ _ _
  proximalWithValue := fun _ _ _ => .bind .check fun _ => .bind .requirePositiveStep fun _ =>
    quiet.proximalWithValue _ _ _

section Defaults

variable {objective : List α → Eval α α} {gradient constraints : List α → List α → Eval α (List α)}

theorem Hooks.keepsFrame_separateObjectiveGradient (first : ∀ x, KeepsFrame (objective x))
    (second : ∀ x out, KeepsFrame (gradient x out)) (x out : List α) :
    KeepsFrame (separateObjectiveGradient objective gradient x out) :=
  .bind (first x) fun _ => .bind (second x out) fun _ => .pure

theorem Hooks.keepsFrame_separateObjectiveConstraints {header : Header α}
    (first : ∀ x, KeepsFrame (objective x)) (second : ∀ x out, KeepsFrame (constraints x out))
    (x out : List α) :
    KeepsFrame (separateObjectiveConstraints header objective constraints x out) :=
  .bind (first x) fun _ => .ite (.bind (second x out) fun _ => .pure) .pure

theorem Hooks.keepsFrame_distanceToProjection [Scalar α] {project : List α → List α → Eval α (List α)}
    (keeps : ∀ v out, KeepsFrame (project v out)) (v : List α) :
    KeepsFrame (distanceToProjection project v) :=
  .bind (keeps v _) fun _ => .pure

end Defaults

open Hooks (keepsFrame_separateObjectiveGradient keepsFrame_separateObjectiveConstraints
  keepsFrame_distanceToProjection)

/-! ### Leaves -/

/-- A backend is called once, and the call is counted. -/
theorem BackendLeaf.keepsFrame_call [Scalar α] (leaf : BackendLeaf α) (evaluation : Evaluation)
    (evaluate : Backend α → Except (Error α) β) : KeepsFrame (leaf.call evaluation evaluate) := by
  intro store
  exact (store.sameFrame_record leaf.backendSerial evaluation).trans (Eval.Leads.ofExcept _ _)

theorem BackendLeaf.quiet [Scalar α] (leaf : BackendLeaf α) : leaf.hooks.Quiet where
  objective := fun x => leaf.keepsFrame_call .objective (·.objective x)
  gradient := fun x _ => leaf.keepsFrame_call .gradient (·.gradient x)
  objectiveGradient := keepsFrame_separateObjectiveGradient (fun _ => leaf.keepsFrame_call _ _)
    fun _ _ => leaf.keepsFrame_call _ _
  constraints := fun x _ => leaf.keepsFrame_call .constraints (·.constraints x)
  objectiveConstraints := keepsFrame_separateObjectiveConstraints
    (fun _ => leaf.keepsFrame_call _ _) fun _ _ => leaf.keepsFrame_call _ _
  jacobianProduct := fun x v _ => leaf.keepsFrame_call .jacobianProduct (·.jacobianProduct x v)
  adjointProduct := fun x v _ => leaf.keepsFrame_call .adjointProduct (·.adjointProduct x v)
  project := fun _ _ => .pure
  distance := keepsFrame_distanceToProjection fun _ _ => .pure
  proximal := fun _ _ _ => .pure
  proximalWithValue := fun _ _ _ => .pure

theorem ExpressionLeaf.quiet [Elementary α] (leaf : ExpressionLeaf α) :
    leaf.hooks.Quiet where
  objective := fun _ => .pure
  gradient := fun _ _ => .pure
  objectiveGradient := keepsFrame_separateObjectiveGradient (fun _ => .pure) fun _ _ => .pure
  constraints := fun _ _ => .pure
  objectiveConstraints := keepsFrame_separateObjectiveConstraints (fun _ => .pure) fun _ _ => .pure
  jacobianProduct := fun _ _ _ => .pure
  adjointProduct := fun _ _ _ => .pure
  project := fun _ _ => .throw
  distance := keepsFrame_distanceToProjection fun _ _ => .throw
  proximal := fun _ _ _ => .throw
  proximalWithValue := fun _ _ _ => .throw

/-! ### Reformulations -/

section Reformulations

variable [Scalar α] {base : Oracle α} (baseQuiet : base.Quiet)
include baseQuiet

theorem Slack.quiet {header : Header α} : (Slack.hooks header base).Quiet := by
  have constraints : ∀ x out, KeepsFrame (Slack.constraints base x out) :=
    fun _ _ => .bind (baseQuiet.constraints _ _) fun _ => .pure
  exact {
    objective := fun _ => baseQuiet.objective _
    gradient := fun _ _ => .bind (baseQuiet.gradient _ _) fun _ => .pure
    objectiveGradient := fun _ _ => .bind (baseQuiet.objectiveGradient _ _) fun _ => .pure
    constraints := constraints
    objectiveConstraints := keepsFrame_separateObjectiveConstraints (fun _ => baseQuiet.objective _)
      constraints
    jacobianProduct := fun _ _ _ => .bind (baseQuiet.jacobianProduct _ _ _) fun _ => .pure
    adjointProduct := fun _ _ _ => .bind (baseQuiet.adjointProduct _ _ _) fun _ => .pure
    project := fun _ _ => .pure
    distance := fun _ => .pure
    proximal := fun _ _ _ => .bind (baseQuiet.proximal _ _ _) fun _ =>
      .bind (baseQuiet.project _ _) fun _ => .pure
    proximalWithValue := fun _ _ _ => .bind (baseQuiet.proximalWithValue _ _ _) fun _ =>
      .bind (baseQuiet.project _ _) fun _ => .pure }

theorem ProximalPoint.quiet {node : ProximalPoint α} : (node.hooks base).Quiet where
  objective := fun _ => .pure
  gradient := fun _ _ => .pure
  objectiveGradient := keepsFrame_separateObjectiveGradient (fun _ => .pure) fun _ _ => .pure
  constraints := fun _ _ => baseQuiet.constraints _ _
  objectiveConstraints := keepsFrame_separateObjectiveConstraints (fun _ => .pure)
    fun _ _ => baseQuiet.constraints _ _
  jacobianProduct := fun _ _ _ => baseQuiet.jacobianProduct _ _ _
  adjointProduct := fun _ _ _ => baseQuiet.adjointProduct _ _ _
  project := fun _ _ => baseQuiet.project _ _
  distance := keepsFrame_distanceToProjection fun _ _ => baseQuiet.project _ _
  proximal := fun _ _ _ => baseQuiet.proximal _ _ _
  proximalWithValue := fun _ _ _ => baseQuiet.proximalWithValue _ _ _

namespace AugmentedLagrangian

variable (node : AugmentedLagrangian α)

omit baseQuiet in
theorem keepsFrame_modifyScratch (change : Scratch α → Scratch α) :
    KeepsFrame (node.modifyScratch base change) :=
  .modify fun _ => ⟨rfl, rfl, rfl, rfl, rfl, fun _ => rfl⟩

theorem keepsFrame_constraintValues (x : List α) : KeepsFrame (node.constraintValues base x) :=
  .read fun _ => .bind (baseQuiet.constraints _ _) fun _ =>
    .bind (node.keepsFrame_modifyScratch _) fun _ => .pure

theorem keepsFrame_penaltyTerm (values : List α) : KeepsFrame (node.penaltyTerm base values) :=
  .read fun _ => .bind (node.keepsFrame_modifyScratch _) fun _ => .read fun _ =>
    .bind (baseQuiet.project _ _) fun _ => .bind (node.keepsFrame_modifyScratch _) fun _ => .pure

theorem keepsFrame_pullback (x estimate : List α) : KeepsFrame (node.pullback base x estimate) :=
  .read fun _ => .bind (baseQuiet.adjointProduct _ _ _) fun _ =>
    .bind (node.keepsFrame_modifyScratch _) fun _ => .pure

theorem keepsFrame_multiplierEstimate (x : Tensor α) (out : Option (Tensor α)) :
    KeepsFrame (node.multiplierEstimate base x out) :=
  .bind .check fun _ => .bind .check fun _ =>
    .bind (node.keepsFrame_constraintValues baseQuiet _) fun _ =>
      .bind (node.keepsFrame_penaltyTerm baseQuiet _) fun _ => .pure

theorem quiet : (node.hooks base).Quiet := by
  have objective : ∀ x, KeepsFrame (node.objective base x) := fun _ =>
    .read fun _ => .bind (baseQuiet.objectiveConstraints _ _) fun _ =>
      .bind (node.keepsFrame_modifyScratch _) fun _ =>
        .bind (node.keepsFrame_penaltyTerm baseQuiet _) fun _ => .pure
  have gradient : ∀ x out, KeepsFrame (node.gradient base x out) := fun _ _ =>
    .bind (node.keepsFrame_constraintValues baseQuiet _) fun _ =>
      .bind (node.keepsFrame_penaltyTerm baseQuiet _) fun _ =>
        .bind (baseQuiet.gradient _ _) fun _ => .bind (node.keepsFrame_pullback baseQuiet _ _) fun _ => .pure
  have objectiveGradient : ∀ x out, KeepsFrame (node.objectiveGradient base x out) := fun _ _ =>
    .bind (node.keepsFrame_constraintValues baseQuiet _) fun _ =>
      .bind (node.keepsFrame_penaltyTerm baseQuiet _) fun _ =>
        .bind (baseQuiet.objectiveGradient _ _) fun _ =>
          .bind (node.keepsFrame_pullback baseQuiet _ _) fun _ => .pure
  exact {
    objective := objective
    gradient := gradient
    objectiveGradient := objectiveGradient
    constraints := fun _ _ => .pure
    objectiveConstraints := keepsFrame_separateObjectiveConstraints objective fun _ _ => .pure
    jacobianProduct := fun _ _ _ => .pure
    adjointProduct := fun _ _ _ => .pure
    project := fun _ _ => .throw
    distance := keepsFrame_distanceToProjection fun _ _ => .throw
    proximal := fun _ _ _ => baseQuiet.proximal _ _ _
    proximalWithValue := fun _ _ _ => baseQuiet.proximalWithValue _ _ _ }

end AugmentedLagrangian

namespace Feasibility

variable (node : Feasibility α)

omit baseQuiet in
theorem keepsFrame_modifyCache (change : ResidualCache α → ResidualCache α) :
    KeepsFrame (node.modifyCache base change) :=
  .modify fun _ => ⟨rfl, rfl, rfl, rfl, rfl, fun _ => rfl⟩

theorem keepsFrame_residual (x : List α) : KeepsFrame (node.residual base x) :=
  .read fun _ => .ite .pure <| .bind (baseQuiet.constraints _ _) fun _ =>
    .bind (node.keepsFrame_modifyCache _) fun _ => .bind (baseQuiet.project _ _) fun _ =>
      .bind (node.keepsFrame_modifyCache _) fun _ => .pure

theorem keepsFrame_infeasibility (x : Tensor α) : KeepsFrame (node.infeasibility base x) :=
  .bind .check fun _ => .bind (node.keepsFrame_residual baseQuiet _) fun _ => .pure

/-- A loss without a direction leaves the base alone. -/
theorem keepsFrame_infeasibilityGradient (x : Tensor α) (out : Option (Tensor α)) :
    KeepsFrame (node.infeasibilityGradient base x out) := by
  refine .bind .check fun _ => .bind (node.keepsFrame_residual baseQuiet _) fun r => ?_
  refine .bind (.ofExcept _) fun direction? => ?_
  cases direction? with
  | none => exact .pure
  | some direction => exact baseQuiet.adjointProduct _ _ _

theorem keepsFrame_ask (question : Question α) : KeepsFrame (node.ask base question) := by
  cases question with
  | infeasibility x => exact .bind (node.keepsFrame_infeasibility baseQuiet x) fun _ => .pure
  | infeasibilityGradient x out =>
      exact .bind (node.keepsFrame_infeasibilityGradient baseQuiet x out) fun _ => .pure
  | violation x =>
      have violation : KeepsFrame (node.violation base x) :=
        .bind .check fun _ => .bind (node.keepsFrame_residual baseQuiet _) fun _ => .pure
      exact .bind violation fun _ => .pure
  | proximalDistance x => exact .bind (.bind .check fun _ => .pure) fun _ => .pure
  | unscaledDistance x => exact .bind (.bind .check fun _ => .pure) fun _ => .pure

theorem quiet : (node.hooks base).Quiet := by
  have objective : ∀ x, KeepsFrame (node.objective base x) := fun _ =>
    .bind (node.keepsFrame_infeasibility baseQuiet _) fun _ =>
      .ite (.bind (.bind .check fun _ => .pure) fun _ => .pure) .pure
  have gradient : ∀ x out, KeepsFrame (node.gradient base x out) := fun _ _ =>
    .bind (node.keepsFrame_infeasibilityGradient baseQuiet _ _) fun _ => .ite .pure .pure
  exact {
    objective := objective
    gradient := gradient
    objectiveGradient := keepsFrame_separateObjectiveGradient objective gradient
    constraints := fun _ _ => .pure
    objectiveConstraints := keepsFrame_separateObjectiveConstraints objective fun _ _ => .pure
    jacobianProduct := fun _ _ _ => .pure
    adjointProduct := fun _ _ _ => .pure
    project := fun _ _ => .throw
    distance := keepsFrame_distanceToProjection fun _ _ => .throw
    proximal := fun _ _ _ => .ite (baseQuiet.proximal _ _ _) .pure
    proximalWithValue := fun _ _ _ => .ite (baseQuiet.proximalWithValue _ _ _) .pure }

end Feasibility

theorem Tailored.quiet (node : Tailored α) : (node.hooks base).Quiet := by
  have project : ∀ v out, KeepsFrame (node.project base v out) := by
    intro v out
    unfold Tailored.project
    split
    · exact .throw
    · exact baseQuiet.project _ _
    · exact .ofExcept _
  exact {
    objective := fun _ => baseQuiet.objective _
    gradient := fun _ _ => baseQuiet.gradient _ _
    objectiveGradient := keepsFrame_separateObjectiveGradient (fun _ => baseQuiet.objective _)
      fun _ _ => baseQuiet.gradient _ _
    constraints := fun _ _ => baseQuiet.constraints _ _
    objectiveConstraints := keepsFrame_separateObjectiveConstraints (fun _ => baseQuiet.objective _)
      fun _ _ => baseQuiet.constraints _ _
    jacobianProduct := fun _ _ _ => baseQuiet.jacobianProduct _ _ _
    adjointProduct := fun _ _ _ => baseQuiet.adjointProduct _ _ _
    project := project
    distance := keepsFrame_distanceToProjection project
    proximal := by
      intro x step out
      simp only [hooks, proximal]
      split
      · exact .throw
      · exact .pure
    proximalWithValue := by
      intro x step out
      simp only [hooks, proximalWithValue]
      split
      · exact .throw
      · exact .pure }

end Reformulations

/-! ### Stacks -/

/-- Every stack only counts evaluations and fills buffers, since each layer does so apart from what it
asks its base for. -/
theorem Model.quiet [Elementary α] (model : Model α) : model.oracle.Quiet := by
  induction model with
  | backend leaf => exact leaf.quiet.oracle
  | expression leaf => exact leaf.quiet.oracle
  | slack node base ih => exact (Slack.quiet ih).oracle
  | proximalPoint node base ih => exact (ProximalPoint.quiet ih).oracle
  | augmentedLagrangian node base ih => exact (node.quiet ih).oracle
  | feasibility node base ih => exact (node.quiet ih).oracle
  | tailored node base ih => exact (node.quiet ih).oracle

theorem Oracle.Quiet.call [Scalar α] {oracle : Oracle α} (quiet : oracle.Quiet)
    (call : Call α) : KeepsFrame (oracle.call call) := by
  cases call with
  | objective x => exact .bind (quiet.objective x) fun _ => .pure
  | gradient x out => exact .bind (quiet.gradient x out) fun _ => .pure
  | objectiveGradient x out => exact .bind (quiet.objectiveGradient x out) fun _ => .pure
  | constraints x out => exact .bind (quiet.constraints x out) fun _ => .pure
  | objectiveConstraints x out => exact .bind (quiet.objectiveConstraints x out) fun _ => .pure
  | jacobianProduct x v out => exact .bind (quiet.jacobianProduct x v out) fun _ => .pure
  | adjointProduct x v out => exact .bind (quiet.adjointProduct x v out) fun _ => .pure
  | project v out => exact .bind (quiet.project v out) fun _ => .pure
  | distance v => exact .bind (quiet.distance v) fun _ => .pure
  | proximal x step out => exact .bind (quiet.proximal x step out) fun _ => .pure
  | proximalWithValue x step out => exact .bind (quiet.proximalWithValue x step out) fun _ => .pure

end CompositeModels
