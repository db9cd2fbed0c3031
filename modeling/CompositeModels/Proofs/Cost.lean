/-
Module: CompositeModels.Proofs.Cost
Purpose: How many calls of a backend an evaluation costs. One call, question or estimate makes each
  evaluation of a backend run at most once, however many layers are above it. Layers do not have this
  property apart from each other: what is carried through the stack is that the objective of a problem
  with constraints costs only the objective of the backend, its gradient only the gradient, and so on,
  so that the one layer that asks for several of them can still do so.
Main exports: Store.Spent, Eval.Spends, Oracle.Thrifty, Model.thrifty,
  AugmentedLagrangian.objectiveGradientPlan, Session.Reachable.evaluations_call_backends_once
-/
import Mathlib.Data.List.Perm.Subperm
import CompositeModels.Proofs.Frame
import CompositeModels.Proofs.Recomputation
import CompositeModels.Proofs.Transpose

namespace CompositeModels

variable {α β γ : Type}

/-! ### Stores -/

/-- All evaluations of a backend. -/
def Evaluation.all : List Evaluation :=
  [.objective, .gradient, .constraints, .jacobianProduct, .adjointProduct]

theorem Evaluation.count_all (evaluation : Evaluation) : all.count evaluation = 1 := by
  cases evaluation <;> rfl

/-- Between two stores no evaluation of a backend was called more often than it is listed. -/
structure Store.Spent (listed : List Evaluation) (before after : Store α) : Prop where
  least : ∀ backend evaluation,
    (before.tally backend).count evaluation ≤ (after.tally backend).count evaluation
  most : ∀ backend evaluation, (after.tally backend).count evaluation ≤
    (before.tally backend).count evaluation + listed.count evaluation

theorem Tally.count_record (tally : Tally) (recorded evaluation : Evaluation) :
    (tally.record recorded).count evaluation = tally.count evaluation + [recorded].count evaluation := by
  cases recorded <;> cases evaluation <;> rfl

namespace Store.Spent

variable {listed others : List Evaluation} {first second third : Store α}

/-- Only the tallies matter. -/
theorem of_tallies (same : second.tallies = first.tallies) : Spent listed first second := by
  have tally : ∀ backend, second.tally backend = first.tally backend := by
    intro backend
    rw [tally, tally, same]
  constructor
  · intro backend evaluation
    rw [tally]
  · intro backend evaluation
    rw [tally]
    exact Nat.le_add_right _ _

theorem trans (before : Spent listed first second) (after : Spent others second third) :
    Spent (listed ++ others) first third where
  least := fun backend evaluation =>
    Nat.le_trans (before.least backend evaluation) (after.least backend evaluation)
  most := by
    intro backend evaluation
    have early := before.most backend evaluation
    have late := after.most backend evaluation
    rw [List.count_append]
    omega

theorem mono (spent : Spent listed first second) (within : listed.Subperm others) :
    Spent others first second where
  least := spent.least
  most := fun backend evaluation =>
    Nat.le_trans (spent.most backend evaluation) (Nat.add_le_add_left (within.count_le evaluation) _)

instance isPreorder : IsPreorder (Store α) (Spent []) where
  refl := fun _ => of_tallies rfl
  trans := fun _ _ _ => trans

/-- A call that is counted was spent. -/
theorem record (store : Store α) (backend : Nat) (evaluation : Evaluation) :
    Spent [evaluation] store (store.setTally backend ((store.tally backend).record evaluation)) := by
  have counts : ∀ other counted,
      ((store.setTally backend ((store.tally backend).record evaluation)).tally other).count counted =
        (store.tally other).count counted +
          if other = backend then [evaluation].count counted else 0 := by
    intro other counted
    by_cases same : other = backend
    · subst same
      rw [Store.tally_setTally_self, Tally.count_record, if_pos rfl]
    · rw [Store.tally_setTally_of_ne _ _ same, if_neg same, Nat.add_zero]
  constructor
  · intro other counted
    rw [counts]
    exact Nat.le_add_right _ _
  · intro other counted
    rw [counts]
    split
    · exact Nat.le_refl _
    · exact Nat.add_le_add_left (Nat.zero_le _) _

end Store.Spent

/-! ### Computations -/

/-- Whatever comes of the computation, no evaluation is called more often than it is listed. -/
abbrev Eval.Spends (listed : List Evaluation) (program : Eval α β) : Prop :=
  Leads (Store.Spent listed) program

namespace Eval

open Store (Spent)

/-- What follows is only done if the first part returns, and goes on from the store that it left. -/
theorem spent_bind {program : Eval α β} {next : β → Eval α γ} {listed others : List Evaluation}
    {store : Store α} (first : Spent listed store (program.after store))
    (rest : ∀ value later, program.run store = .ok value later →
      Spent others later ((next value).after later)) :
    Spent (listed ++ others) store ((program >>= next).after store) := by
  cases run : program.run store with
  | ok value later =>
      rw [after_of_run_ok run] at first
      rw [after, run_bind_of_ok run]
      exact first.trans (rest value later run)
  | error cause later =>
      rw [after_of_run_error run] at first
      rw [after_of_run_error (run_bind_of_error run)]
      exact first.mono (List.sublist_append_left listed others).subperm

/-- A program that returns after a first part got the result of that part. -/
theorem exists_of_run_bind {program : Eval α β} {next : β → Eval α γ} {store later : Store α}
    {result : γ} (returned : (program >>= next).run store = .ok result later) :
    ∃ value between, program.run store = .ok value between ∧
      (next value).run between = .ok result later := by
  cases run : program.run store with
  | ok value between => exact ⟨value, between, rfl, (run_bind_of_ok run).symm.trans returned⟩
  | error cause between => cases (run_bind_of_error run).symm.trans returned

/-- A check leaves the store alone. -/
theorem eq_of_run_checkVectors {expected : Nat} {shapes : List Shape} {store later : Store α}
    {value : Unit} (passed : (checkVectors expected shapes).run store = .ok value later) :
    later = store := by
  have after := after_of_run_ok passed
  rw [checkVectors] at after
  cases checked : CompositeModels.checkVectors (α := α) expected shapes with
  | ok =>
      rw [checked] at after
      exact after.symm
  | error cause =>
      rw [checked] at after
      exact after.symm

namespace Spends

variable {listed others : List Evaluation} {program : Eval α β} {next : β → Eval α γ}

theorem mono (spends : Spends listed program) (within : listed.Subperm others) :
    Spends others program := fun store => (spends store).mono within

/-- What calls no backend fits in every list. -/
theorem ofFree (free : Spends [] program) : Spends listed program :=
  free.mono (List.nil_sublist listed).subperm

theorem read {start : Store α → Eval α β} (rest : ∀ store, Spends listed (start store)) :
    Spends listed (get >>= start) := Leads.read rest

theorem bind (first : Spends listed program) (rest : ∀ value, Spends others (next value)) :
    Spends (listed ++ others) (program >>= next) :=
  fun store => spent_bind (first store) fun value later _ => rest value later

/-- What is done before a call of a backend costs nothing more. -/
theorem afterFree (first : Spends [] program) (rest : ∀ value, Spends others (next value)) :
    Spends others (program >>= next) := first.bind rest

/-- Computing something from a result costs nothing more. -/
theorem andThen (first : Spends listed program) (rest : ∀ value, Spends [] (next value)) :
    Spends listed (program >>= next) := by
  have both := first.bind rest
  rw [List.append_nil] at both
  exact both

/-- What is asked for only if there are constraints. -/
theorem guarded {ncon : Nat} {skipped : Eval α β} (done : Spends listed program)
    (free : Spends [] skipped) :
    Spends (if 0 < ncon then listed else []) (if 0 < ncon then program else skipped) := by
  split
  · exact done
  · exact free

end Spends

end Eval

open Eval (Spends)
open Store (Spent)

/-! ### Hooks and operations -/

/-- What the smooth part may cost. With constraints these are the evaluations that are listed. A problem
without constraints may be an augmented Lagrangian or a feasibility problem, whose objective needs the
constraints of its base, so it may use everything once. -/
def Evaluation.forObjective (ncon : Nat) (listed : List Evaluation) : List Evaluation :=
  if 0 < ncon then listed else all

/-- What the constraints may cost: the evaluations that are listed, or nothing if there are none. -/
def Evaluation.forConstraints (ncon : Nat) (listed : List Evaluation) : List Evaluation :=
  if 0 < ncon then listed else []

open Evaluation (forObjective forConstraints)

namespace Evaluation

variable {ncon : Nat} {listed others : List Evaluation}

theorem forObjective_subperm (within : listed.Subperm all) :
    (forObjective ncon listed).Subperm all := by
  unfold forObjective
  split
  · exact within
  · exact .refl _

theorem forObjective_of_all (within : listed.Subperm all) :
    listed.Subperm (forObjective ncon listed) := by
  unfold forObjective
  split
  · exact .refl _
  · exact within

theorem forObjective_append (listed others : List Evaluation) :
    forObjective ncon listed ++ forConstraints ncon others = forObjective ncon (listed ++ others) := by
  unfold forObjective forConstraints
  split
  · rfl
  · exact List.append_nil _

theorem forConstraints_append (listed others : List Evaluation) :
    forConstraints ncon listed ++ forConstraints ncon others =
      forConstraints ncon (listed ++ others) := by
  unfold forConstraints
  split <;> rfl

theorem forConstraints_subperm : (forConstraints ncon listed).Subperm listed := by
  unfold forConstraints
  split
  · exact .refl _
  · exact (List.nil_sublist listed).subperm

/-- The smooth part between the constraint values and a product: each is used once, with or without
constraints. -/
theorem between_subperm (within : (.constraints :: (listed ++ [.adjointProduct])).Subperm all) :
    (forConstraints ncon [.constraints] ++
      (forObjective ncon listed ++ forConstraints ncon [.adjointProduct])).Subperm all := by
  rw [forObjective_append]
  unfold forConstraints forObjective
  split
  · exact within
  · exact .refl _

end Evaluation

/-- No entry of the point differs from itself. -/
def IsDefinedPoint [Scalar α] (x : List α) : Prop := ∀ a ∈ x, Scalar.isUndefined a = false

/-- What the hooks of a problem with `ncon` constraints may cost. -/
structure Hooks.Thrifty [Scalar α] (ncon : Nat) (hooks : Hooks α) : Prop where
  objective : ∀ x, Spends (forObjective ncon [.objective]) (hooks.objective x)
  gradient : ∀ x out, Spends (forObjective ncon [.gradient]) (hooks.gradient x out)
  objectiveGradient : ∀ x out, IsDefinedPoint x →
    Spends (forObjective ncon [.objective, .gradient]) (hooks.objectiveGradient x out)
  constraints : ∀ x out, Spends [.constraints] (hooks.constraints x out)
  objectiveConstraints : ∀ x out,
    Spends (forObjective ncon [.objective, .constraints]) (hooks.objectiveConstraints x out)
  jacobianProduct : ∀ x v out, Spends [.jacobianProduct] (hooks.jacobianProduct x v out)
  adjointProduct : ∀ x v out, Spends [.adjointProduct] (hooks.adjointProduct x v out)
  project : ∀ v out, Spends [] (hooks.project v out)
  distance : ∀ v, Spends [] (hooks.distance v)
  proximal : ∀ x step out, Spends [] (hooks.proximal x step out)
  proximalWithValue : ∀ x step out, Spends [] (hooks.proximalWithValue x step out)

/-- What the operations of a problem may cost. Without constraints, asking for them costs nothing. -/
structure Oracle.Thrifty [Scalar α] (oracle : Oracle α) : Prop where
  objective : ∀ x, Spends (forObjective oracle.header.ncon [.objective]) (oracle.objective x)
  gradient : ∀ x out, Spends (forObjective oracle.header.ncon [.gradient]) (oracle.gradient x out)
  objectiveGradient : ∀ x out, IsDefinedPoint x.entries →
    Spends (forObjective oracle.header.ncon [.objective, .gradient]) (oracle.objectiveGradient x out)
  constraints : ∀ x out,
    Spends (forConstraints oracle.header.ncon [.constraints]) (oracle.constraints x out)
  objectiveConstraints : ∀ x out,
    Spends (forObjective oracle.header.ncon [.objective, .constraints])
      (oracle.objectiveConstraints x out)
  jacobianProduct : ∀ x v out,
    Spends (forConstraints oracle.header.ncon [.jacobianProduct]) (oracle.jacobianProduct x v out)
  adjointProduct : ∀ x v out,
    Spends (forConstraints oracle.header.ncon [.adjointProduct]) (oracle.adjointProduct x v out)
  project : ∀ v out, Spends [] (oracle.project v out)
  distance : ∀ v, Spends [] (oracle.distance v)
  proximal : ∀ x step out, Spends [] (oracle.proximal x step out)
  proximalWithValue : ∀ x step out, Spends [] (oracle.proximalWithValue x step out)

/-- Checks read their arrays only. -/
theorem Hooks.Thrifty.oracle [Scalar α] {oracle : Oracle α}
    (thrifty : oracle.hooks.Thrifty oracle.header.ncon) : oracle.Thrifty where
  objective := fun _ => .afterFree .check fun _ => thrifty.objective _
  gradient := fun _ _ => .afterFree .check fun _ => thrifty.gradient _ _
  objectiveGradient := fun _ _ defined => .afterFree .check fun _ =>
    thrifty.objectiveGradient _ _ defined
  constraints := fun _ _ => .afterFree .check fun _ => .afterFree .check fun _ =>
    .guarded (thrifty.constraints _ _) .pure
  objectiveConstraints := fun _ _ => .afterFree .check fun _ => .afterFree .check fun _ =>
    thrifty.objectiveConstraints _ _
  jacobianProduct := fun _ _ _ => .afterFree .check fun _ => .afterFree .check fun _ =>
    .guarded (thrifty.jacobianProduct _ _ _) .pure
  adjointProduct := fun _ _ _ => .afterFree .check fun _ => .afterFree .check fun _ =>
    .guarded (thrifty.adjointProduct _ _ _) .pure
  project := fun _ _ => .afterFree .check fun _ => .ite (thrifty.project _ _) .pure
  distance := fun _ => .afterFree .check fun _ => .ite (thrifty.distance _) .pure
  proximal := fun _ _ _ => .afterFree .check fun _ => .afterFree .requirePositiveStep fun _ =>
    thrifty.proximal _ _ _
  proximalWithValue := fun _ _ _ => .afterFree .check fun _ => .afterFree .requirePositiveStep fun _ =>
    thrifty.proximalWithValue _ _ _

section Defaults

variable {objective : List α → Eval α α}
  {gradient constraints : List α → List α → Eval α (List α)} {listed others : List Evaluation}

theorem Hooks.spends_separateObjectiveGradient (first : ∀ x, Spends listed (objective x))
    (second : ∀ x out, Spends others (gradient x out)) (x out : List α) :
    Spends (listed ++ others) (separateObjectiveGradient objective gradient x out) :=
  .bind (first x) fun _ => .andThen (second x out) fun _ => .pure

theorem Hooks.spends_separateObjectiveConstraints {header : Header α}
    (first : ∀ x, Spends (forObjective header.ncon listed) (objective x))
    (second : ∀ x out, Spends others (constraints x out)) (x out : List α) :
    Spends (forObjective header.ncon (listed ++ others))
      (separateObjectiveConstraints header objective constraints x out) := by
  rw [← Evaluation.forObjective_append]
  exact .bind (first x) fun _ => .guarded (.andThen (second x out) fun _ => .pure) .pure

theorem Hooks.spends_distanceToProjection [Scalar α]
    {project : List α → List α → Eval α (List α)} (free : ∀ v out, Spends [] (project v out))
    (v : List α) : Spends [] (distanceToProjection project v) :=
  .andThen (free v _) fun _ => .pure

end Defaults

open Hooks (spends_separateObjectiveGradient spends_separateObjectiveConstraints
  spends_distanceToProjection)

/-! ### Leaves -/

/-- A backend is called once, and the call is counted. -/
theorem BackendLeaf.spends_call [Scalar α] (leaf : BackendLeaf α) (evaluation : Evaluation)
    (evaluate : Backend α → Except (Error α) β) :
    Spends [evaluation] (leaf.call evaluation evaluate) :=
  fun store => (Store.Spent.record store leaf.backendSerial evaluation).trans
    ((Eval.Leads.ofExcept _ : Spends [] _) _)

theorem BackendLeaf.thrifty [Scalar α] (leaf : BackendLeaf α) :
    leaf.hooks.Thrifty leaf.header.ncon where
  objective := fun x => (leaf.spends_call .objective (·.objective x)).mono
    (Evaluation.forObjective_of_all (by decide))
  gradient := fun x _ => (leaf.spends_call .gradient (·.gradient x)).mono
    (Evaluation.forObjective_of_all (by decide))
  objectiveGradient := fun x out _ =>
    (spends_separateObjectiveGradient (fun _ => leaf.spends_call _ _)
      (fun _ _ => leaf.spends_call _ _) x out).mono (Evaluation.forObjective_of_all (by decide))
  constraints := fun x _ => leaf.spends_call .constraints (·.constraints x)
  objectiveConstraints := spends_separateObjectiveConstraints
    (fun _ => (leaf.spends_call _ _).mono (Evaluation.forObjective_of_all (by decide)))
    fun _ _ => leaf.spends_call _ _
  jacobianProduct := fun x v _ => leaf.spends_call .jacobianProduct (·.jacobianProduct x v)
  adjointProduct := fun x v _ => leaf.spends_call .adjointProduct (·.adjointProduct x v)
  project := fun _ _ => .pure
  distance := spends_distanceToProjection fun _ _ => .pure
  proximal := fun _ _ _ => .pure
  proximalWithValue := fun _ _ _ => .pure

/-- Expressions need no backend. -/
theorem ExpressionLeaf.thrifty [Elementary α] (leaf : ExpressionLeaf α) :
    leaf.hooks.Thrifty leaf.header.ncon := by
  have objective : ∀ x, Spends (forObjective leaf.header.ncon [.objective])
      (leaf.hooks.objective x) := fun _ => .ofFree .pure
  have constraints : ∀ x out, Spends [.constraints] (leaf.hooks.constraints x out) :=
    fun _ _ => .ofFree .pure
  exact {
    objective := objective
    gradient := fun _ _ => .ofFree .pure
    objectiveGradient := fun _ _ _ => .ofFree (.andThen .pure fun _ => .andThen .pure fun _ => .pure)
    constraints := constraints
    objectiveConstraints := spends_separateObjectiveConstraints objective constraints
    jacobianProduct := fun _ _ _ => .ofFree .pure
    adjointProduct := fun _ _ _ => .ofFree .pure
    project := fun _ _ => .throw
    distance := spends_distanceToProjection fun _ _ => .throw
    proximal := fun _ _ _ => .throw
    proximalWithValue := fun _ _ _ => .throw }

/-! ### Reformulations -/

section Reformulations

variable [Scalar α] {base : Oracle α} (baseThrifty : base.Thrifty)
include baseThrifty

theorem Slack.thrifty {header : Header α} (ncon : header.ncon = base.header.ncon) :
    (Slack.hooks header base).Thrifty header.ncon := by
  have constraints : ∀ x out, Spends [.constraints] (Slack.constraints base x out) := fun _ _ =>
    .mono (.andThen (baseThrifty.constraints _ _) fun _ => .pure) Evaluation.forConstraints_subperm
  rw [ncon]
  exact {
    objective := fun _ => baseThrifty.objective _
    gradient := fun _ _ => .andThen (baseThrifty.gradient _ _) fun _ => .pure
    objectiveGradient := fun _ _ defined =>
      .andThen (baseThrifty.objectiveGradient _ _ fun a member =>
        defined a (List.mem_of_mem_take member)) fun _ => .pure
    constraints := constraints
    objectiveConstraints := by
      rw [← ncon]
      exact spends_separateObjectiveConstraints
        (fun x => ncon ▸ baseThrifty.objective (.vector (Slack.baseBlock base x))) constraints
    jacobianProduct := fun _ _ _ =>
      .mono (.andThen (baseThrifty.jacobianProduct _ _ _) fun _ => .pure)
        Evaluation.forConstraints_subperm
    adjointProduct := fun _ _ _ =>
      .mono (.andThen (baseThrifty.adjointProduct _ _ _) fun _ => .pure)
        Evaluation.forConstraints_subperm
    project := fun _ _ => .pure
    distance := fun _ => .pure
    proximal := fun _ _ _ => .andThen (baseThrifty.proximal _ _ _) fun _ =>
      .andThen (baseThrifty.project _ _) fun _ => .pure
    proximalWithValue := fun _ _ _ => .andThen (baseThrifty.proximalWithValue _ _ _) fun _ =>
      .andThen (baseThrifty.project _ _) fun _ => .pure }

theorem ProximalPoint.thrifty {node : ProximalPoint α} :
    (node.hooks base).Thrifty node.header.ncon := by
  have objective : ∀ x, Spends (forObjective node.header.ncon [.objective])
      ((node.hooks base).objective x) := fun _ => .ofFree .pure
  have constraints : ∀ x out, Spends [.constraints] ((node.hooks base).constraints x out) :=
    fun _ _ => (baseThrifty.constraints _ _).mono Evaluation.forConstraints_subperm
  exact {
    objective := objective
    gradient := fun _ _ => .ofFree .pure
    objectiveGradient := fun _ _ _ => .ofFree (.andThen .pure fun _ => .andThen .pure fun _ => .pure)
    constraints := constraints
    objectiveConstraints := spends_separateObjectiveConstraints objective constraints
    jacobianProduct := fun _ _ _ =>
      (baseThrifty.jacobianProduct _ _ _).mono Evaluation.forConstraints_subperm
    adjointProduct := fun _ _ _ =>
      (baseThrifty.adjointProduct _ _ _).mono Evaluation.forConstraints_subperm
    project := fun _ _ => baseThrifty.project _ _
    distance := spends_distanceToProjection fun _ _ => baseThrifty.project _ _
    proximal := fun _ _ _ => baseThrifty.proximal _ _ _
    proximalWithValue := fun _ _ _ => baseThrifty.proximalWithValue _ _ _ }

namespace AugmentedLagrangian

variable (node : AugmentedLagrangian α)

omit baseThrifty in
theorem spends_modifyScratch (change : Scratch α → Scratch α) :
    Spends [] (node.modifyScratch base change) :=
  .modify fun _ => .of_tallies rfl

theorem spends_constraintValues (x : List α) :
    Spends (forConstraints base.header.ncon [.constraints]) (node.constraintValues base x) :=
  .read fun _ => .andThen (baseThrifty.constraints _ _) fun _ =>
    .andThen (node.spends_modifyScratch _) fun _ => .pure

theorem spends_penaltyTerm (values : List α) : Spends [] (node.penaltyTerm base values) :=
  .read fun _ => .andThen (node.spends_modifyScratch _) fun _ => .read fun _ =>
    .andThen (baseThrifty.project _ _) fun _ => .andThen (node.spends_modifyScratch _) fun _ => .pure

theorem spends_pullback (x estimate : List α) :
    Spends (forConstraints base.header.ncon [.adjointProduct]) (node.pullback base x estimate) :=
  .read fun _ => .andThen (baseThrifty.adjointProduct _ _ _) fun _ =>
    .andThen (node.spends_modifyScratch _) fun _ => .pure

theorem spends_multiplierEstimate (x : Tensor α) (out : Option (Tensor α)) :
    Spends (forConstraints base.header.ncon [.constraints])
      (node.multiplierEstimate base x out) :=
  .afterFree .check fun _ => .afterFree .check fun _ =>
    .andThen (node.spends_constraintValues baseThrifty _) fun _ =>
      .andThen (node.spends_penaltyTerm baseThrifty _) fun _ => .pure

/-- The value and the gradient of the Lagrangian share one evaluation of the constraints. -/
theorem spends_objectiveGradient {x : List α} (defined : IsDefinedPoint x) (out : List α) :
    Spends Evaluation.all (node.objectiveGradient base x out) := by
  have spends : Spends (forConstraints base.header.ncon [.constraints] ++
      (forObjective base.header.ncon [.objective, .gradient] ++
        forConstraints base.header.ncon [.adjointProduct])) (node.objectiveGradient base x out) :=
    .bind (node.spends_constraintValues baseThrifty _) fun _ =>
      .afterFree (node.spends_penaltyTerm baseThrifty _) fun _ =>
        .bind (baseThrifty.objectiveGradient _ _ defined) fun _ =>
          .andThen (node.spends_pullback baseThrifty _ _) fun _ => .pure
  exact spends.mono (Evaluation.between_subperm (by decide))

theorem thrifty : (node.hooks base).Thrifty 0 := by
  have objective : ∀ x, Spends Evaluation.all (node.objective base x) := by
    intro x
    have spends : Spends (forObjective base.header.ncon [.objective, .constraints])
        (node.objective base x) :=
      .read fun _ => .andThen (baseThrifty.objectiveConstraints _ _) fun _ =>
        .andThen (node.spends_modifyScratch _) fun _ =>
          .andThen (node.spends_penaltyTerm baseThrifty _) fun _ => .pure
    exact spends.mono (Evaluation.forObjective_subperm (by decide))
  have gradient : ∀ x out, Spends Evaluation.all (node.gradient base x out) := by
    intro x out
    have spends : Spends (forConstraints base.header.ncon [.constraints] ++
        (forObjective base.header.ncon [.gradient] ++
          forConstraints base.header.ncon [.adjointProduct])) (node.gradient base x out) :=
      .bind (node.spends_constraintValues baseThrifty _) fun _ =>
        .afterFree (node.spends_penaltyTerm baseThrifty _) fun _ =>
          .bind (baseThrifty.gradient _ _) fun _ =>
            .andThen (node.spends_pullback baseThrifty _ _) fun _ => .pure
    exact spends.mono (Evaluation.between_subperm (by decide))
  exact {
    objective := objective
    gradient := gradient
    objectiveGradient := fun _ out defined => node.spends_objectiveGradient baseThrifty defined out
    constraints := fun _ _ => .ofFree .pure
    objectiveConstraints := fun x out =>
      .andThen (objective x) fun _ => .ite (.bind .pure fun _ => .pure) .pure
    jacobianProduct := fun _ _ _ => .ofFree .pure
    adjointProduct := fun _ _ _ => .ofFree .pure
    project := fun _ _ => .throw
    distance := spends_distanceToProjection fun _ _ => .throw
    proximal := fun _ _ _ => baseThrifty.proximal _ _ _
    proximalWithValue := fun _ _ _ => baseThrifty.proximalWithValue _ _ _ }

end AugmentedLagrangian

namespace Feasibility

variable (node : Feasibility α) {x : List α} {store later : Store α}

/-- The residual at hand is the one at `x`. -/
def HasAtHand (base : Oracle α) (x : List α) (store : Store α) : Prop :=
  (node.cache base store).point.any (x == ·) = true

omit baseThrifty in
theorem run_residual_of_hasAtHand (known : node.HasAtHand base x store) :
    (node.residual base x).run store = .ok (node.cache base store).residual store := by
  rw [residual]
  change (if (node.cache base store).point.any (x == ·) then _ else _ : Eval α (List α)) store = _
  exact congrFun (if_pos known) store

omit baseThrifty in
theorem beq_self_of_defined (defined : IsDefinedPoint x) : (x == x) = true := by
  induction x with
  | nil => rfl
  | cons a rest ih =>
      have same : (a == a) = true := by
        simpa [Scalar.isUndefined] using defined a (.head _)
      exact Bool.and_eq_true_iff.2 ⟨same, ih fun b member => defined b (.tail _ member)⟩

omit baseThrifty in
/-- Once a residual was returned it is at hand, at a point that equals itself. -/
theorem hasAtHand_of_residual (defined : IsDefinedPoint x) {r : List α}
    (returned : (node.residual base x).run store = .ok r later) : node.HasAtHand base x later := by
  by_cases known : node.HasAtHand base x store
  · rw [node.run_residual_of_hasAtHand known] at returned
    cases returned
    exact known
  · rw [residual] at returned
    change (if (node.cache base store).point.any (x == ·) then _ else _ : Eval α (List α)) store = _
      at returned
    replace returned := (congrFun (if_neg known) store).symm.trans returned
    obtain ⟨values, _, _, returned⟩ := Eval.exists_of_run_bind returned
    obtain ⟨_, _, _, returned⟩ := Eval.exists_of_run_bind returned
    obtain ⟨projected, _, _, returned⟩ := Eval.exists_of_run_bind returned
    cases returned
    simp [HasAtHand, cache, beq_self_of_defined defined]

omit baseThrifty in
theorem hasAtHand_of_objective (defined : IsDefinedPoint x) {value : α}
    (returned : (node.objective base x).run store = .ok value later) : node.HasAtHand base x later := by
  obtain ⟨loss, between, infeasibility, rest⟩ := Eval.exists_of_run_bind returned
  obtain ⟨_, _, _, infeasibility⟩ := Eval.exists_of_run_bind infeasibility
  obtain ⟨r, _, residual, done⟩ := Eval.exists_of_run_bind infeasibility
  cases done
  have known : node.HasAtHand base x between := node.hasAtHand_of_residual defined residual
  split at rest
  · obtain ⟨_, _, distance, done⟩ := Eval.exists_of_run_bind rest
    obtain ⟨_, _, checked, distance⟩ := Eval.exists_of_run_bind distance
    cases done
    cases distance
    rw [Eval.eq_of_run_checkVectors checked]
    exact known
  · cases rest
    exact known

omit baseThrifty in
theorem spends_modifyCache (change : ResidualCache α → ResidualCache α) :
    Spends [] (node.modifyCache base change) :=
  .modify fun _ => .of_tallies rfl

theorem spends_residual (x : List α) :
    Spends (forConstraints base.header.ncon [.constraints]) (node.residual base x) :=
  .read fun _ => .ite (Spends.ofFree .pure) <| Spends.andThen (baseThrifty.constraints _ _) fun _ =>
    .afterFree (node.spends_modifyCache _) fun _ => .andThen (baseThrifty.project _ _) fun _ =>
      .andThen (node.spends_modifyCache _) fun _ => .pure

theorem spends_infeasibility (x : Tensor α) :
    Spends (forConstraints base.header.ncon [.constraints]) (node.infeasibility base x) :=
  .afterFree .check fun _ => .andThen (node.spends_residual baseThrifty _) fun _ => .pure

theorem spends_slope (x out r : List α) :
    Spends (forConstraints base.header.ncon [.adjointProduct]) (node.slope base x out r) := by
  refine .afterFree (.ofExcept _) fun direction? => ?_
  cases direction? with
  | none => exact .ofFree .pure
  | some direction => exact baseThrifty.adjointProduct _ _ _

theorem spends_infeasibilityGradient (x : Tensor α) (out : Option (Tensor α)) :
    Spends Evaluation.all (node.infeasibilityGradient base x out) := by
  have spends : Spends (forConstraints base.header.ncon [.constraints] ++
      forConstraints base.header.ncon [.adjointProduct]) (node.infeasibilityGradient base x out) :=
    .afterFree .check fun _ => .bind (node.spends_residual baseThrifty _) fun r =>
      node.spends_slope baseThrifty _ _ r
  rw [Evaluation.forConstraints_append] at spends
  exact spends.mono (Evaluation.forConstraints_subperm.trans (by decide))

theorem spends_ask (question : Question α) : Spends Evaluation.all (node.ask base question) := by
  have within : (forConstraints base.header.ncon [.constraints]).Subperm Evaluation.all :=
    Evaluation.forConstraints_subperm.trans (by decide)
  cases question with
  | infeasibility x =>
      exact .andThen ((node.spends_infeasibility baseThrifty x).mono within) fun _ => .pure
  | infeasibilityGradient x out =>
      exact .andThen (node.spends_infeasibilityGradient baseThrifty x out) fun _ => .pure
  | violation x =>
      have violation : Spends (forConstraints base.header.ncon [.constraints])
          (node.violation base x) :=
        .afterFree .check fun _ => .andThen (node.spends_residual baseThrifty _) fun _ => .pure
      exact .andThen (violation.mono within) fun _ => .pure
  | proximalDistance x =>
      exact .andThen (.afterFree .check fun _ => .ofFree .pure) fun _ => .pure
  | unscaledDistance x =>
      exact .andThen (.afterFree .check fun _ => .ofFree .pure) fun _ => .pure

theorem spends_objective (x : List α) :
    Spends (forConstraints base.header.ncon [.constraints]) (node.objective base x) :=
  .andThen (node.spends_infeasibility baseThrifty _) fun _ =>
    .ite (.bind (.bind .check fun _ => .pure) fun _ => .pure) .pure

theorem spends_gradient (x out : List α) : Spends Evaluation.all (node.gradient base x out) :=
  .andThen (node.spends_infeasibilityGradient baseThrifty _ _) fun _ => .ite .pure .pure

/-- With the residual at hand, the gradient does not need the constraint values again. -/
theorem spent_gradient_of_hasAtHand (known : node.HasAtHand base x store) (out : List α) :
    Spent (forConstraints base.header.ncon [.adjointProduct]) store
      ((node.gradient base x out).after store) := by
  have rest : ∀ r, Spends (forConstraints base.header.ncon [.adjointProduct])
      (node.slope base x out r >>= fun slope =>
        if node.withProximalTerm then
          pure (Vec.add slope (Vec.mul (Vec.scale node.weight node.scaling) (Vec.sub x node.center)))
        else pure slope) :=
    fun r => .andThen (node.spends_slope baseThrifty x out r) fun _ => .ite .pure .pure
  rw [gradient, infeasibilityGradient, bind_assoc]
  cases checked : checkVectors (α := α) node.header.nvar
      [(Tensor.vector x).shape, (Oracle.buffer node.header.nvar (some (.vector out))).shape] with
  | error cause =>
      rw [Eval.checkVectors, checked]
      exact .of_tallies rfl
  | ok =>
      rw [Eval.checkVectors, checked, Eval.after]
      change Spent _ store
        (((node.residual base x >>= fun r => node.slope base x out r) >>= _).after store)
      rw [bind_assoc, Eval.after, run_bind_of_ok (node.run_residual_of_hasAtHand known)]
      exact rest _ store

/-- The value and the gradient of the loss share one residual. -/
theorem spends_objectiveGradient (defined : IsDefinedPoint x) (out : List α) :
    Spends Evaluation.all
      (Hooks.separateObjectiveGradient (node.objective base) (node.gradient base) x out) := by
  intro store
  have spent : Spent (forConstraints base.header.ncon [.constraints] ++
      (forConstraints base.header.ncon [.adjointProduct] ++ [])) store
      ((Hooks.separateObjectiveGradient (node.objective base) (node.gradient base) x out).after store) :=
    Eval.spent_bind (node.spends_objective baseThrifty x store) fun value between returned =>
      Eval.spent_bind (node.spent_gradient_of_hasAtHand baseThrifty
        (node.hasAtHand_of_objective defined returned) out) fun _ _ _ => .of_tallies rfl
  rw [List.append_nil, Evaluation.forConstraints_append] at spent
  exact spent.mono (Evaluation.forConstraints_subperm.trans (by decide))

theorem thrifty : (node.hooks base).Thrifty 0 where
  objective := fun _ => (node.spends_objective baseThrifty _).mono
    (Evaluation.forConstraints_subperm.trans (by decide))
  gradient := fun _ _ => node.spends_gradient baseThrifty _ _
  objectiveGradient := fun _ out defined => node.spends_objectiveGradient baseThrifty defined out
  constraints := fun _ _ => .ofFree .pure
  objectiveConstraints := fun _ _ => .andThen ((node.spends_objective baseThrifty _).mono
      (Evaluation.forConstraints_subperm.trans (by decide)))
    fun _ => .ite (.bind .pure fun _ => .pure) .pure
  jacobianProduct := fun _ _ _ => .ofFree .pure
  adjointProduct := fun _ _ _ => .ofFree .pure
  project := fun _ _ => .throw
  distance := spends_distanceToProjection fun _ _ => .throw
  proximal := fun _ _ _ => .ite (baseThrifty.proximal _ _ _) .pure
  proximalWithValue := fun _ _ _ => .ite (baseThrifty.proximalWithValue _ _ _) .pure

end Feasibility

end Reformulations

/-! ### Stacks -/

/-- No operation of a stack costs more than one call of each kind, and those of a problem with
constraints cost only what belongs to them. -/
theorem Model.thrifty [Elementary α] {models : List (Model α)} (family : Family models)
    {model : Model α} (member : model ∈ models) (packaged : model.IsPackaged) :
    model.oracle.Thrifty := by
  induction model with
  | backend leaf => exact leaf.thrifty.oracle
  | expression leaf => exact leaf.thrifty.oracle
  | slack node base ih =>
      have base := ih (family.bases member rfl) packaged
      exact (Slack.thrifty base ((family.regular member).2.trans (by simp))).oracle
  | proximalPoint node base ih =>
      exact (ProximalPoint.thrifty (ih (family.bases member rfl) packaged)).oracle
  | augmentedLagrangian node base ih =>
      have thrifty := node.thrifty (ih (family.bases member rfl) packaged)
      rw [← (family.regular member).2.1] at thrifty
      exact thrifty.oracle
  | feasibility node base ih =>
      have thrifty := node.thrifty (ih (family.bases member rfl) packaged)
      rw [← (family.regular member).2.1] at thrifty
      exact thrifty.oracle
  | tailored node base ih => exact packaged.elim

/-- Only a fused evaluation relies on its point: its second half finds the residual of the first one
unless the point differs from itself. -/
def Call.HasDefinedPoint [Scalar α] : Call α → Prop
  | .objectiveGradient x _ => IsDefinedPoint x.entries
  | _ => True

theorem Oracle.Thrifty.call [Scalar α] {oracle : Oracle α} (thrifty : oracle.Thrifty) {call : Call α}
    (defined : call.HasDefinedPoint) : Spends Evaluation.all (oracle.call call) := by
  have smooth : ∀ {listed}, listed.Subperm Evaluation.all →
      (forObjective oracle.header.ncon listed).Subperm Evaluation.all :=
    Evaluation.forObjective_subperm
  have constraint : ∀ {listed}, listed.Subperm Evaluation.all →
      (forConstraints oracle.header.ncon listed).Subperm Evaluation.all :=
    Evaluation.forConstraints_subperm.trans
  cases call with
  | objective x => exact .andThen ((thrifty.objective x).mono (smooth (by decide))) fun _ => .pure
  | gradient x out => exact .andThen ((thrifty.gradient x out).mono (smooth (by decide))) fun _ => .pure
  | objectiveGradient x out =>
      exact .andThen ((thrifty.objectiveGradient x out defined).mono (smooth (by decide)))
        fun _ => .pure
  | constraints x out =>
      exact .andThen ((thrifty.constraints x out).mono (constraint (by decide))) fun _ => .pure
  | objectiveConstraints x out =>
      exact .andThen ((thrifty.objectiveConstraints x out).mono (smooth (by decide))) fun _ => .pure
  | jacobianProduct x v out =>
      exact .andThen ((thrifty.jacobianProduct x v out).mono (constraint (by decide))) fun _ => .pure
  | adjointProduct x v out =>
      exact .andThen ((thrifty.adjointProduct x v out).mono (constraint (by decide))) fun _ => .pure
  | project v out => exact .ofFree (.andThen (thrifty.project v out) fun _ => .pure)
  | distance v => exact .ofFree (.andThen (thrifty.distance v) fun _ => .pure)
  | proximal x step out => exact .ofFree (.andThen (thrifty.proximal x step out) fun _ => .pure)
  | proximalWithValue x step out =>
      exact .ofFree (.andThen (thrifty.proximalWithValue x step out) fun _ => .pure)

/-! ### The Lagrangian and its base -/

namespace AugmentedLagrangian

variable [Scalar α] (node : AugmentedLagrangian α)

/-- The buffers, as far as they can be told from the header of the base. -/
def buffers (base : Header α) (store : Store α) : Scratch α :=
  (store.scratch.get? node.serial).getD {
    constraints := Vec.zeros base.ncon
    residual := Vec.zeros base.ncon
    multipliers := Vec.zeros base.ncon
    pullback := Vec.zeros base.nvar }

/-- A store with changed buffers. -/
def buffering (base : Header α) (change : Scratch α → Scratch α) (store : Store α) : Store α :=
  { store with scratch := store.scratch.set node.serial (change (node.buffers base store)) }

/-- Come by the constraint values. -/
def valuesPlan (base : Header α) (x : List α) : Plan α (List α) := do
  let store ← Plan.fetch
  let values ← Plan.perform
    (.constraints (.vector x) (some (.vector (node.buffers base store).constraints)))
  Plan.update (node.buffering base fun scratch => { scratch with constraints := values })
  return values

/-- From constraint values, the penalty term and the multiplier estimate. -/
def termPlan (base : Header α) (values : List α) : Plan α (α × List α) := do
  let store ← Plan.fetch
  let shifted := Vec.add values (node.penalty store).shift.entries
  Plan.update (node.buffering base fun scratch => { scratch with residual := shifted })
  let later ← Plan.fetch
  let projected ← Plan.perform
    (.project (.vector shifted) (some (.vector (node.buffers base later).multipliers)))
  let residual := Vec.sub shifted projected
  let estimate := Vec.div residual (node.penalty store).mu.entries
  Plan.update (node.buffering base fun scratch =>
    { scratch with residual := residual, multipliers := estimate })
  return (Scalar.half * Vec.dot residual estimate - (node.penalty store).offset, estimate)

/-- The multiplier estimate, pulled back. -/
def pullbackPlan (base : Header α) (x estimate : List α) : Plan α (List α) := do
  let store ← Plan.fetch
  let content ← Plan.perform (.adjointProduct (.vector x) (.vector estimate)
    (some (.vector (node.buffers base store).pullback)))
  Plan.update (node.buffering base fun scratch => { scratch with pullback := content })
  return content

/-- The Lagrangian and its gradient, without a look at the base. -/
def objectiveGradientPlan (base : Header α) (x : Tensor α) (out : Option (Tensor α)) :
    Plan α (α × List α) := do
  let out := Oracle.buffer node.header.nvar out
  Plan.check node.header.nvar [x.shape, out.shape]
  let values ← node.valuesPlan base x.entries
  let term ← node.termPlan base values
  let smooth ← Plan.perform
    (.objectiveGradient (.vector x.entries) (some (.vector out.entries)))
  let correction ← node.pullbackPlan base x.entries term.2
  return (smooth.1 + term.1, Vec.add smooth.2 correction)

theorem run_valuesPlan (base : Oracle α) (x : List α) :
    (node.valuesPlan base.header x).run base = node.constraintValues base x := rfl

theorem run_termPlan (base : Oracle α) (values : List α) :
    (node.termPlan base.header values).run base = node.penaltyTerm base values := rfl

theorem run_pullbackPlan (base : Oracle α) (x estimate : List α) :
    (node.pullbackPlan base.header x estimate).run base = node.pullback base x estimate := rfl

theorem run_objectiveGradientPlan (base : Oracle α) (x : Tensor α) (out : Option (Tensor α)) :
    (node.objectiveGradientPlan base.header x out).run base =
      (node.oracle base).objectiveGradient x out := by
  have smooth : ∀ slope, (Plan.perform (.objectiveGradient (.vector x.entries) slope)).run base =
      base.objectiveGradient (.vector x.entries) slope := fun _ => Plan.run_perform base _
  simp only [objectiveGradientPlan, Plan.run_bind, Plan.run_check, run_valuesPlan, run_termPlan,
    run_pullbackPlan, smooth]
  rfl

/-- How the Lagrangian and its gradient are come by at `x`: whether they are returned, and which calls
of the base are made. Each call is made once the ones before it returned. -/
inductive SharedEvaluation (x : List α) : Bool → List (Asked α) → Prop
  /-- The arrays are refused. -/
  | refused : SharedEvaluation x false []
  | constraintsFailed {c} : SharedEvaluation x false [⟨.constraints (.vector x) c, false⟩]
  | projectionFailed {c w z} : SharedEvaluation x false
      [⟨.constraints (.vector x) c, true⟩, ⟨.project w z, false⟩]
  | smoothFailed {c w z g} : SharedEvaluation x false
      [⟨.constraints (.vector x) c, true⟩, ⟨.project w z, true⟩,
        ⟨.objectiveGradient (.vector x) g, false⟩]
  | pullbackFailed {c w z g y p} : SharedEvaluation x false
      [⟨.constraints (.vector x) c, true⟩, ⟨.project w z, true⟩,
        ⟨.objectiveGradient (.vector x) g, true⟩, ⟨.adjointProduct (.vector x) y p, false⟩]
  | returned {c w z g y p} : SharedEvaluation x true
      [⟨.constraints (.vector x) c, true⟩, ⟨.project w z, true⟩,
        ⟨.objectiveGradient (.vector x) g, true⟩, ⟨.adjointProduct (.vector x) y p, true⟩]

section

variable (base : Oracle α) (store : Store α)

theorem asksOnce_valuesPlan (header : Header α) (x : List α) :
    Plan.AsksOnce base (node.valuesPlan header x) store
      fun call => ∃ out, call = .constraints (.vector x) out :=
  .fetch_bind (.perform_bind ⟨_, rfl⟩ fun _ _ => ⟨rfl, rfl⟩)

theorem asksOnce_termPlan (header : Header α) (values : List α) :
    Plan.AsksOnce base (node.termPlan header values) store
      fun call => ∃ v out, call = .project v out :=
  .fetch_bind (.update_bind (.fetch_bind (.perform_bind ⟨_, _, rfl⟩ fun _ _ => ⟨rfl, rfl⟩)))

theorem asksOnce_pullbackPlan (header : Header α) (x estimate : List α) :
    Plan.AsksOnce base (node.pullbackPlan header x estimate) store
      fun call => ∃ w out, call = .adjointProduct (.vector x) w out :=
  .fetch_bind (.perform_bind ⟨_, _, rfl⟩ fun _ _ => ⟨rfl, rfl⟩)

theorem sharedEvaluation_objectiveGradientPlan (header : Header α) (x : Tensor α)
    (out : Option (Tensor α)) :
    SharedEvaluation x.entries
      (((node.objectiveGradientPlan header x out).run base).outcome store).isOk
      ((node.objectiveGradientPlan header x out).calls base store) := by
  rw [objectiveGradientPlan, Plan.check]
  cases checkVectors (α := α) node.header.nvar
      [x.shape, (Oracle.buffer node.header.nvar out).shape] with
  | error cause => exact .refused
  | ok =>
      refine (node.asksOnce_valuesPlan base store header x.entries).bind_elim
        (motive := SharedEvaluation x.entries) ?_ ?_
      · rintro _ ⟨_, rfl⟩
        exact .constraintsFailed
      rintro _ values second ⟨_, rfl⟩
      refine (node.asksOnce_termPlan base second header values).bind_elim
        (motive := fun returned calls => SharedEvaluation x.entries returned (_ :: calls)) ?_ ?_
      · rintro _ ⟨_, _, rfl⟩
        exact .projectionFailed
      rintro _ term third ⟨_, _, rfl⟩
      have asks : Plan.AsksOnce base (Plan.perform (.objectiveGradient (.vector x.entries)
          (some (.vector (Oracle.buffer node.header.nvar out).entries)))) third
          fun call => ∃ slope, call = .objectiveGradient (.vector x.entries) slope :=
        .perform ⟨_, rfl⟩
      refine asks.bind_elim
        (motive := fun returned calls => SharedEvaluation x.entries returned (_ :: _ :: calls)) ?_ ?_
      · rintro _ ⟨_, rfl⟩
        exact .smoothFailed
      rintro _ smooth fourth ⟨_, rfl⟩
      refine (node.asksOnce_pullbackPlan base fourth header x.entries term.2).bind_elim
        (motive := fun returned calls => SharedEvaluation x.entries returned (_ :: _ :: _ :: calls))
        ?_ ?_
      · rintro _ ⟨_, _, rfl⟩
        exact .pullbackFailed
      rintro _ correction last ⟨_, _, rfl⟩
      exact .returned

omit [Scalar α] in
theorem SharedEvaluation.count_constraints {x : List α} {returned : Bool} {calls : List (Asked α)}
    (shared : SharedEvaluation x returned calls) : calls.countP Asked.forConstraints ≤ 1 ∧
      (returned = true → calls.countP Asked.forConstraints = 1) := by
  cases shared <;> simp [List.countP_cons, Asked.forConstraints]

omit [Scalar α] in
theorem SharedEvaluation.count_projections {x : List α} {returned : Bool} {calls : List (Asked α)}
    (shared : SharedEvaluation x returned calls) : calls.countP Asked.forProjection ≤ 1 ∧
      (returned = true → calls.countP Asked.forProjection = 1) := by
  cases shared <;> simp [List.countP_cons, Asked.forProjection]

end

end AugmentedLagrangian

/-! ### Every session -/

/-- From every store, each evaluation of each backend is called once or not at all. -/
def Eval.CallsOnce (program : Eval α β) : Prop :=
  ∀ store backend evaluation,
    (store.tally backend).count evaluation ≤
        ((program.after store).tally backend).count evaluation ∧
      ((program.after store).tally backend).count evaluation ≤
        (store.tally backend).count evaluation + 1

theorem Eval.Spends.callsOnce {program : Eval α β} (spends : Spends Evaluation.all program) :
    program.CallsOnce := by
  intro store backend evaluation
  have spent := spends store
  have most := spent.most backend evaluation
  rw [Evaluation.count_all] at most
  exact ⟨spent.least backend evaluation, most⟩

/-- In every session, from every store, an operation of a stack without tailored layers, a question to a
feasibility problem and a multiplier estimate call each evaluation of a backend at most once, whether they
return or fail. Of the points that are asked about only those of a fused evaluation have to equal
themselves. An augmented Lagrangian asks its base for its constraint values and for a projection once for
a value and a gradient together. -/
theorem Session.Reachable.evaluations_call_backends_once [Elementary α] {session : Session α}
    (reachable : session.Reachable) :
    (∀ {model : Model α}, model ∈ session.models → model.IsPackaged →
      ∀ {call : Call α}, call.HasDefinedPoint → (model.oracle.call call).CallsOnce) ∧
    (∀ {node : Feasibility α} {base : Model α}, .feasibility node base ∈ session.models →
      base.IsPackaged → ∀ question, (node.ask base.oracle question).CallsOnce) ∧
    (∀ {node : AugmentedLagrangian α} {base : Model α},
      .augmentedLagrangian node base ∈ session.models → base.IsPackaged →
      ∀ x out, (node.multiplierEstimate base.oracle x out).CallsOnce) ∧
    ∀ {node : AugmentedLagrangian α} {base : Model α},
      .augmentedLagrangian node base ∈ session.models → ∀ x out,
      (∀ other : Oracle α, other.header = base.header →
        (node.oracle other).objectiveGradient x out =
          (node.objectiveGradientPlan base.header x out).run other) ∧
      ∀ store,
        let returned := (((node.oracle base.oracle).objectiveGradient x out).outcome store).isOk
        let calls := (node.objectiveGradientPlan base.header x out).calls base.oracle store
        AugmentedLagrangian.SharedEvaluation x.entries returned calls ∧
        (calls.countP Asked.forConstraints ≤ 1 ∧
          (returned = true → calls.countP Asked.forConstraints = 1)) ∧
        (calls.countP Asked.forProjection ≤ 1 ∧
          (returned = true → calls.countP Asked.forProjection = 1)) := by
  have family := reachable.sound.family
  refine ⟨fun member packaged _ defined => ?_, fun member packaged question => ?_,
    fun member packaged x out => ?_,
    fun {node base} member x out => ⟨fun other same => ?_, fun store => ?_⟩⟩
  · exact ((Model.thrifty family member packaged).call defined).callsOnce
  · exact (Feasibility.spends_ask (Model.thrifty family (family.bases member rfl) packaged) _
      question).callsOnce
  · exact ((AugmentedLagrangian.spends_multiplierEstimate
      (Model.thrifty family (family.bases member rfl) packaged) _ x out).mono
        (Evaluation.forConstraints_subperm.trans (by decide))).callsOnce
  · rw [← same, node.run_objectiveGradientPlan]
  · have shared :=
      node.sharedEvaluation_objectiveGradientPlan base.oracle store base.oracle.header x out
    rw [node.run_objectiveGradientPlan, base.oracle_header] at shared
    exact ⟨shared, shared.count_constraints, shared.count_projections⟩

namespace Session

/-- An augmented Lagrangian with the parameters `(2, 2)` and the multipliers `(1, -1)` above the slack
variables of the box, at a point that violates it. -/
theorem evaluations_call_backends_once_box : ∃ session : Session ℝ, ∃ node,
    session.Reachable ∧
      .augmentedLagrangian node (.slack boxSlack (.backend boxLeaf)) ∈ session.models ∧
      let stack := Model.slack boxSlack (.backend boxLeaf)
      ((node.oracle stack.oracle).call (.objectiveGradient (.vector [5, 0, 1]) none)).CallsOnce ∧
      (node.multiplierEstimate stack.oracle (.vector [5, 0, 1]) none).CallsOnce ∧
      ((node.objectiveGradientPlan stack.header (.vector [5, 0, 1]) none).calls stack.oracle
        session.store).countP Asked.forConstraints ≤ 1 := by
  have isOf : AugmentedLagrangian.IsOf ⟨⟨0, ⟨3, 0, [0, 0, 0], [], true, "slack-al"⟩, true⟩,
      .ofVectors (.vector [1 + 1, 1 + 1]) (.vector [1, -1])⟩ boxSlack.header
      (.vector [1 + 1, 1 + 1]) (.vector [1, -1]) none true := {
    constrained := rfl
    admissible := admissible_pair (add_pos one_pos one_pos) (add_pos one_pos one_pos) 1 (-1)
    header := rfl
    ownsBase := rfl
    penalty := rfl }
  obtain ⟨node, session, reachable, models, _, _⟩ :=
    reachable_boxed.exists_augmented boxSlack_mem_boxed isOf
  have member : .augmentedLagrangian node (.slack boxSlack (.backend boxLeaf)) ∈ session.models := by
    rw [models]
    exact .head _
  have once := reachable.evaluations_call_backends_once
  have defined : (Call.objectiveGradient (.vector [(5 : ℝ), 0, 1]) none).HasDefinedPoint :=
    fun a _ => Scalar.isUndefined_real a
  exact ⟨session, node, reachable, member, once.1 member trivial defined, once.2.2.1 member trivial _ _,
    ((once.2.2.2 member _ _).2 session.store).2.1.1⟩

end Session

end CompositeModels
