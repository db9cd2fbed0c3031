/-
Module: CompositeModels.Proofs.Division
Purpose: No evaluation divides by zero. The penalty parameters in force, the step of a proximal-point
  subproblem and the norms that the losses divide by are above zero or undefined, so the quotients by
  zero may be anything: with any other choice of them every evaluation does the same. A division by
  zero is reported only by a backend or by a set that a user supplied, or by a Huber loss with a
  threshold that no feasibility problem is built with.
Main exports: Scalar.LawfulDivision, Scalar.dividing, Model.oracleDividing, Eval.DividesSafely,
  Hooks.Safe, Oracle.Safe, Model.safe, Session.NeverDividesByZero,
  Session.Reachable.never_divides_by_zero
-/
import CompositeModels.Proofs.CacheTransparency
import CompositeModels.Proofs.Frame
import CompositeModels.Proofs.Lagrangian
import CompositeModels.Proofs.Order

namespace CompositeModels

/-! ### Scalars -/

namespace Scalar

/-- Two is not zero, and a norm that counts as small is not below zero. -/
class LawfulDivision (α : Type) [Scalar α] : Prop extends LawfulEquality α where
  smallestNormal_nonneg : (0 : α) ≤ smallestNormal
  two_beq_zero : ((1 + 1 : α) == 0) = false

instance lawfulDivision_float : LawfulDivision Float where
  smallestNormal_nonneg := by decide +kernel
  two_beq_zero := by decide +kernel

instance lawfulDivision_real : LawfulDivision ℝ where
  smallestNormal_nonneg := smallestNormal_pos.le
  two_beq_zero := by
    refine decide_eq_false ?_
    norm_num

/-- The scalars with other quotients by zero. -/
@[reducible] def dividing {α : Type} [Scalar α] (quotient : α → α → α) : Scalar α :=
  { ‹Scalar α› with div := fun a b => if b == 0 then quotient a b else a / b }

section Dividing

variable {α : Type} [Scalar α] (quotient : α → α → α)

/-- Quotients by anything but zero are what they were. -/
theorem div_dividing (a : α) {b : α} (nonzero : (b == 0) = false) :
    (dividing quotient).div a b = a / b := by
  change (if b == 0 then quotient a b else a / b) = a / b
  rw [nonzero, if_neg Bool.false_ne_true]

theorem half_dividing [LawfulDivision α] : @half α (dividing quotient) = half :=
  div_dividing quotient 1 LawfulDivision.two_beq_zero

end Dividing

section Norms

variable {α : Type} [Scalar α] [LawfulEquality α] {bound norm : α}

/-- A norm that is not within a bound is above it or undefined, and in both cases it is not zero. -/
theorem beyond_of_not_le (nonneg : 0 ≤ bound) (large : ¬ norm ≤ bound) :
    (bound < norm ∨ isUndefined norm = true) ∧ (norm == 0) = false := by
  constructor
  · cases undefined : isUndefined norm with
    | true => exact .inr rfl
    | false =>
        have ordered := LawfulOrder.le_total (LawfulOrder.defined_right nonneg) undefined
        exact .inl (LawfulOrder.lt_iff.2 ⟨ordered.resolve_right large, large⟩)
  · refine Bool.eq_false_of_not_eq_true fun zero => large ?_
    exact LawfulOrder.le_trans (LawfulEquality.beq_iff.1 zero).1 nonneg

theorem le_of_pos (positive : 0 < bound) : 0 ≤ bound := (LawfulOrder.lt_iff.1 positive).1

end Norms

end Scalar

variable {α β γ : Type}

section Vectors

variable [Scalar α] (quotient : α → α → α)

theorem Vec.divide_dividing (v : List α) {c : α} (nonzero : (c == 0) = false) :
    @Vec.divide α (.dividing quotient) v c = Vec.divide v c :=
  List.map_congr_left fun a _ => Scalar.div_dividing quotient a nonzero

theorem Vec.div_dividing (u : List α) {v : List α} (nonzero : ∀ m ∈ v, (m == 0) = false) :
    @Vec.div α (.dividing quotient) u v = Vec.div u v := by
  induction u generalizing v with
  | nil => rfl
  | cons a rest ih =>
      cases v with
      | nil => rfl
      | cons m others =>
          exact congrArg₂ List.cons (Scalar.div_dividing quotient a (nonzero m (.head _)))
            (ih fun other member => nonzero other (.tail _ member))

end Vectors

/-! ### Losses -/

section Losses

variable [Scalar α]

/-- A Huber loss with a positive threshold divides by the norm only where it is above the threshold or
undefined. -/
theorem Huber.direction_of_large [Scalar.LawfulEquality α] {huber : Huber α}
    (positive : 0 < huber.threshold) {r : List α} (large : ¬ Vec.norm r ≤ huber.threshold) :
    huber.direction r = .ok (Vec.scale (huber.threshold * huber.scale / Vec.norm r) r) := by
  have nonzero := (Scalar.beyond_of_not_le (Scalar.le_of_pos positive) large).2
  rw [direction, if_neg large, nonzero, if_neg Bool.false_ne_true]

theorem Huber.direction_returns [Scalar.LawfulEquality α] {huber : Huber α}
    (positive : 0 < huber.threshold) (r : List α) : ∃ d, huber.direction r = .ok d := by
  by_cases small : Vec.norm r ≤ huber.threshold
  · exact ⟨_, if_pos small⟩
  · exact ⟨_, direction_of_large positive small⟩

theorem Loss.direction_returns [Scalar.LawfulEquality α] (loss : Loss) {huber : Huber α}
    (positive : 0 < huber.threshold) (r : List α) : ∃ d, loss.direction huber r = .ok d := by
  cases loss with
  | abs => exact ⟨_, rfl⟩
  | euclid =>
      by_cases small : Vec.norm r ≤ Scalar.smallestNormal
      · exact ⟨_, if_pos small⟩
      · exact ⟨_, if_neg small⟩
  | euclidSquared => exact ⟨_, rfl⟩
  | huber =>
      obtain ⟨d, found⟩ := Huber.direction_returns positive r
      exact ⟨some d, by rw [direction, found]; rfl⟩

variable [Scalar.LawfulDivision α] (quotient : α → α → α)

theorem Huber.value_dividing (huber : Huber α) (r : List α) :
    @Huber.value α (.dividing quotient) huber r = huber.value r := by
  by_cases small : Vec.norm r ≤ huber.threshold
  · refine (if_pos small).trans (.trans ?_ (if_pos small).symm)
    exact congrArg (· * huber.scale * (Vec.norm r * Vec.norm r)) (Scalar.half_dividing quotient)
  · refine (if_neg small).trans (.trans ?_ (if_neg small).symm)
    exact congrArg (fun half => huber.threshold * huber.scale * (Vec.norm r - half * huber.threshold))
      (Scalar.half_dividing quotient)

theorem Huber.direction_dividing {huber : Huber α} (positive : 0 < huber.threshold) (r : List α) :
    @Huber.direction α (.dividing quotient) huber r = huber.direction r := by
  by_cases small : Vec.norm r ≤ huber.threshold
  · exact (if_pos small).trans (if_pos small).symm
  · have nonzero := (Scalar.beyond_of_not_le (Scalar.le_of_pos positive) small).2
    rw [direction_of_large positive small]
    have divides : ¬ (Vec.norm r == 0) = true := by
      rw [nonzero]
      exact Bool.false_ne_true
    refine (if_neg small).trans ((if_neg divides).trans ?_)
    exact congrArg (fun factor => Except.ok (Vec.scale factor r))
      (Scalar.div_dividing quotient _ nonzero)

theorem Loss.value_dividing (loss : Loss) (huber : Huber α) (r : List α) :
    @Loss.value α (.dividing quotient) loss huber r = loss.value huber r := by
  cases loss with
  | abs => rfl
  | euclid => rfl
  | euclidSquared => exact congrArg (· * Vec.dot r r) (Scalar.half_dividing quotient)
  | huber => exact huber.value_dividing quotient r

theorem Loss.direction_dividing (loss : Loss) {huber : Huber α} (positive : 0 < huber.threshold)
    (r : List α) :
    @Loss.direction α (.dividing quotient) loss huber r = loss.direction huber r := by
  cases loss with
  | abs => rfl
  | euclid =>
      by_cases small : Vec.norm r ≤ Scalar.smallestNormal
      · exact (if_pos small).trans (if_pos small).symm
      · have nonzero :=
          (Scalar.beyond_of_not_le Scalar.LawfulDivision.smallestNormal_nonneg small).2
        refine (if_neg small).trans (.trans ?_ (if_neg small).symm)
        exact congrArg (fun d => Except.ok (some d)) (Vec.divide_dividing quotient r nonzero)
  | euclidSquared => rfl
  | huber => exact congrArg (·.map some) (Huber.direction_dividing quotient positive r)

end Losses

/-! ### Computations -/

/-- These penalty data are in force, and no backend was replaced. -/
structure Store.Holds (penalties : Table (Penalty α)) (store : Store α) : Prop where
  penalties : store.penalties = penalties
  unrevised : ∀ backend, store.revisions.get? backend = none

theorem Store.Holds.of_sameFrame {penalties : Table (Penalty α)} {before after : Store α}
    (holds : before.Holds penalties) (same : before.SameFrame after) : after.Holds penalties where
  penalties := same.penalties.trans holds.penalties
  unrevised := by
    rw [same.revisions]
    exact holds.unrevised

/-- Where these penalty data are in force, `other` does what `program` does. If the program reports a
division by zero, then something outside of it does. -/
structure Eval.DividesSafely (penalties : Table (Penalty α)) (outside : Prop)
    (program other : Eval α β) : Prop where
  agrees : ∀ {store}, store.Holds penalties → other.run store = program.run store
  keeps : ∀ {store}, store.Holds penalties → (program.after store).Holds penalties
  cause : ∀ {store later}, store.Holds penalties →
    program.run store = .error .divisionByZero later → outside

namespace Eval.DividesSafely

variable {penalties : Table (Penalty α)} {outside : Prop}

theorem pure {value : β} : DividesSafely penalties outside (pure value) (pure value) where
  agrees := fun _ => rfl
  keeps := id
  cause := by
    intro store later _ failed
    cases failed

theorem ofExcept {answer : Except (Error α) β} (cause : answer = .error .divisionByZero → outside) :
    DividesSafely penalties outside (ofExcept answer) (ofExcept answer) where
  agrees := fun _ => rfl
  keeps := by
    intro store holds
    cases answer <;> exact holds
  cause := by
    intro store later _ failed
    cases answer with
    | ok value => cases failed
    | error reason =>
        cases failed
        exact cause rfl

theorem throw {cause : Error α} (different : cause ≠ .divisionByZero) :
    DividesSafely penalties outside (throw cause : Eval α β) (throw cause) :=
  ofExcept fun same => absurd (Except.error.inj same) different

/-- A check fails for a length. -/
theorem check {expected : Nat} {shapes : List Shape} :
    DividesSafely penalties outside (checkVectors expected shapes : Eval α Unit)
      (checkVectors expected shapes) := by
  refine ofExcept fun failed => ?_
  by_cases fits : ∀ shape ∈ shapes, shape = [expected]
  · rw [checkVectors_eq_ok_iff.2 fits] at failed
    cases failed
  · simp only [not_forall] at fits
    obtain ⟨shape, member, misfit⟩ := fits
    obtain ⟨_, _, _, _, _, mismatch⟩ := exists_misfit_of_checkVectors ⟨shape, member, misfit⟩
    rw [mismatch] at failed
    cases failed

theorem read {next next' : Store α → Eval α β}
    (rest : ∀ store, store.Holds penalties →
      DividesSafely penalties outside (next store) (next' store)) :
    DividesSafely penalties outside (get >>= next) (get >>= next') where
  agrees := fun {store} holds => (rest store holds).agrees holds
  keeps := fun {store} holds => (rest store holds).keeps holds
  cause := fun {store _} holds => (rest store holds).cause holds

theorem modify {change : Store α → Store α}
    (frame : ∀ store : Store α, store.SameFrame (change store)) :
    DividesSafely penalties outside (modify change : Eval α PUnit) (modify change) where
  agrees := fun _ => rfl
  keeps := fun {store} holds => holds.of_sameFrame (frame store)
  cause := by
    intro store later _ failed
    cases failed

theorem bind {program program' : Eval α β} {next next' : β → Eval α γ}
    (first : DividesSafely penalties outside program program')
    (rest : ∀ value, DividesSafely penalties outside (next value) (next' value)) :
    DividesSafely penalties outside (program >>= next) (program' >>= next') where
  agrees := by
    intro store holds
    have same := first.agrees holds
    cases run : program.run store with
    | ok value later =>
        have later := after_of_run_ok run ▸ first.keeps holds
        rw [run] at same
        rw [run_bind_of_ok run, run_bind_of_ok same]
        exact (rest value).agrees later
    | error cause later =>
        rw [run] at same
        rw [run_bind_of_error run, run_bind_of_error same]
  keeps := by
    intro store holds
    have later := first.keeps holds
    cases run : program.run store with
    | ok value between =>
        rw [after_of_run_ok run] at later
        rw [after, run_bind_of_ok run]
        exact (rest value).keeps later
    | error cause between =>
        rw [after_of_run_error run] at later
        rw [after_of_run_error (run_bind_of_error run)]
        exact later
  cause := by
    intro store last holds failed
    have later := first.keeps holds
    cases run : program.run store with
    | ok value between =>
        rw [after_of_run_ok run] at later
        rw [run_bind_of_ok run] at failed
        exact (rest value).cause later failed
    | error cause between =>
        rw [run_bind_of_error run] at failed
        cases failed
        exact first.cause holds run

theorem ite {condition : Prop} {decided : Decidable condition} {first first' second second' : Eval α β}
    (yes : DividesSafely penalties outside first first')
    (no : DividesSafely penalties outside second second') :
    DividesSafely penalties outside (if condition then first else second)
      (if condition then first' else second') := by
  split
  · exact yes
  · exact no

theorem requirePositiveStep [Scalar α] {step : α} :
    DividesSafely penalties outside (Oracle.requirePositiveStep step)
      (Oracle.requirePositiveStep step) :=
  .ite .pure (.throw (by simp))

end Eval.DividesSafely

open Eval (DividesSafely)

/-! ### Hooks and operations -/

/-- Hooks that do the same as others that divide by zero with other results. -/
structure Hooks.Safe (penalties : Table (Penalty α)) (outside : Prop)
    (hooks other : Hooks α) : Prop where
  objective : ∀ x, DividesSafely penalties outside (hooks.objective x) (other.objective x)
  gradient : ∀ x out, DividesSafely penalties outside (hooks.gradient x out) (other.gradient x out)
  objectiveGradient : ∀ x out, DividesSafely penalties outside (hooks.objectiveGradient x out)
    (other.objectiveGradient x out)
  constraints : ∀ x out, DividesSafely penalties outside (hooks.constraints x out)
    (other.constraints x out)
  objectiveConstraints : ∀ x out, DividesSafely penalties outside (hooks.objectiveConstraints x out)
    (other.objectiveConstraints x out)
  jacobianProduct : ∀ x v out, DividesSafely penalties outside (hooks.jacobianProduct x v out)
    (other.jacobianProduct x v out)
  adjointProduct : ∀ x v out, DividesSafely penalties outside (hooks.adjointProduct x v out)
    (other.adjointProduct x v out)
  project : ∀ v out, DividesSafely penalties outside (hooks.project v out) (other.project v out)
  distance : ∀ v, DividesSafely penalties outside (hooks.distance v) (other.distance v)
  proximal : ∀ x step out, DividesSafely penalties outside (hooks.proximal x step out)
    (other.proximal x step out)
  proximalWithValue : ∀ x step out, DividesSafely penalties outside
    (hooks.proximalWithValue x step out) (other.proximalWithValue x step out)

/-- Problems whose operations do the same, if the second one divides by zero with other results. -/
structure Oracle.Safe [Scalar α] (penalties : Table (Penalty α)) (outside : Prop)
    (quotient : α → α → α) (oracle other : Oracle α) : Prop where
  header : other.header = oracle.header
  objective : ∀ x, DividesSafely penalties outside (oracle.objective x)
    (other.objective x)
  gradient : ∀ x out, DividesSafely penalties outside (oracle.gradient x out)
    (@Oracle.gradient α (.dividing quotient) other x out)
  objectiveGradient : ∀ x out, DividesSafely penalties outside (oracle.objectiveGradient x out)
    (@Oracle.objectiveGradient α (.dividing quotient) other x out)
  constraints : ∀ x out, DividesSafely penalties outside (oracle.constraints x out)
    (@Oracle.constraints α (.dividing quotient) other x out)
  objectiveConstraints : ∀ x out, DividesSafely penalties outside
    (oracle.objectiveConstraints x out)
    (@Oracle.objectiveConstraints α (.dividing quotient) other x out)
  jacobianProduct : ∀ x v out, DividesSafely penalties outside (oracle.jacobianProduct x v out)
    (@Oracle.jacobianProduct α (.dividing quotient) other x v out)
  adjointProduct : ∀ x v out, DividesSafely penalties outside (oracle.adjointProduct x v out)
    (@Oracle.adjointProduct α (.dividing quotient) other x v out)
  project : ∀ v out, DividesSafely penalties outside (oracle.project v out)
    (@Oracle.project α (.dividing quotient) other v out)
  distance : ∀ v, DividesSafely penalties outside (oracle.distance v)
    (@Oracle.distance α (.dividing quotient) other v)
  proximal : ∀ x step out, DividesSafely penalties outside (oracle.proximal x step out)
    (@Oracle.proximal α (.dividing quotient) other x step out)
  proximalWithValue : ∀ x step out, DividesSafely penalties outside
    (oracle.proximalWithValue x step out)
    (@Oracle.proximalWithValue α (.dividing quotient) other x step out)

/-- So both have one header, and what a reformulation reads of it is the same. -/
theorem Oracle.Safe.exists_eq [Scalar α] {penalties : Table (Penalty α)} {outside : Prop}
    {quotient : α → α → α} {oracle other : Oracle α}
    (safe : oracle.Safe penalties outside quotient other) :
    ∃ kind hooks, other = ⟨oracle.header, kind, hooks⟩ := by
  rcases other with ⟨header, kind, hooks⟩
  obtain rfl : header = oracle.header := safe.header
  exact ⟨kind, hooks, rfl⟩

theorem Hooks.Safe.oracle [Scalar α] {penalties : Table (Penalty α)} {outside : Prop}
    {header : Header α} {kind kind' : ModelKind} {hooks other : Hooks α}
    (safe : hooks.Safe penalties outside other) (quotient : α → α → α) :
    Oracle.Safe penalties outside quotient ⟨header, kind, hooks⟩ ⟨header, kind', other⟩ where
  header := rfl
  objective := fun _ => .bind .check fun _ => safe.objective _
  gradient := fun _ _ => .bind .check fun _ => safe.gradient _ _
  objectiveGradient := fun _ _ => .bind .check fun _ => safe.objectiveGradient _ _
  constraints := fun _ _ => .bind .check fun _ => .bind .check fun _ =>
    .ite (safe.constraints _ _) .pure
  objectiveConstraints := fun _ _ => .bind .check fun _ => .bind .check fun _ =>
    safe.objectiveConstraints _ _
  jacobianProduct := fun _ _ _ => .bind .check fun _ => .bind .check fun _ =>
    .ite (safe.jacobianProduct _ _ _) .pure
  adjointProduct := fun _ _ _ => .bind .check fun _ => .bind .check fun _ =>
    .ite (safe.adjointProduct _ _ _) .pure
  project := fun _ _ => .bind .check fun _ => .ite (safe.project _ _) .pure
  distance := fun _ => .bind .check fun _ => .ite (safe.distance _) .pure
  proximal := fun _ _ _ => .bind .check fun _ => .bind .requirePositiveStep fun _ =>
    safe.proximal _ _ _
  proximalWithValue := fun _ _ _ => .bind .check fun _ => .bind .requirePositiveStep fun _ =>
    safe.proximalWithValue _ _ _

section Defaults

variable {penalties : Table (Penalty α)} {outside : Prop}
  {objective objective' : List α → Eval α α}
  {gradient gradient' constraints constraints' : List α → List α → Eval α (List α)}

theorem Hooks.safe_separateObjectiveGradient
    (first : ∀ x, DividesSafely penalties outside (objective x) (objective' x))
    (second : ∀ x out, DividesSafely penalties outside (gradient x out) (gradient' x out))
    (x out : List α) : DividesSafely penalties outside
      (separateObjectiveGradient objective gradient x out)
      (separateObjectiveGradient objective' gradient' x out) :=
  .bind (first x) fun _ => .bind (second x out) fun _ => .pure

theorem Hooks.safe_separateObjectiveConstraints {header : Header α}
    (first : ∀ x, DividesSafely penalties outside (objective x) (objective' x))
    (second : ∀ x out, DividesSafely penalties outside (constraints x out) (constraints' x out))
    (x out : List α) : DividesSafely penalties outside
      (separateObjectiveConstraints header objective constraints x out)
      (separateObjectiveConstraints header objective' constraints' x out) :=
  .bind (first x) fun _ => .ite (.bind (second x out) fun _ => .pure) .pure

theorem Hooks.safe_distanceToProjection [Scalar α] (quotient : α → α → α)
    {project project' : List α → List α → Eval α (List α)}
    (safe : ∀ v out, DividesSafely penalties outside (project v out) (project' v out)) (v : List α) :
    DividesSafely penalties outside (distanceToProjection project v)
      (@distanceToProjection α (.dividing quotient) project' v) :=
  .bind (safe v _) fun _ => .pure

end Defaults

open Hooks (safe_separateObjectiveGradient safe_separateObjectiveConstraints
  safe_distanceToProjection)

/-! ### Reformulations -/

section Reformulations

variable [Scalar α] {penalties : Table (Penalty α)} {outside : Prop} {quotient : α → α → α}
  {base other : Oracle α} (baseSafe : base.Safe penalties outside quotient other)
include baseSafe

theorem Slack.safe {header : Header α} : (Slack.hooks header base).Safe penalties outside
    (@Slack.hooks α (.dividing quotient) header other) := by
  obtain ⟨kind, hooks, rfl⟩ := baseSafe.exists_eq
  exact {
    objective := fun _ => baseSafe.objective _
    gradient := fun _ _ => .bind (baseSafe.gradient _ _) fun _ => .pure
    objectiveGradient := fun _ _ => .bind (baseSafe.objectiveGradient _ _) fun _ => .pure
    constraints := fun _ _ => .bind (baseSafe.constraints _ _) fun _ => .pure
    objectiveConstraints := safe_separateObjectiveConstraints (fun _ => baseSafe.objective _)
      fun _ _ => .bind (baseSafe.constraints _ _) fun _ => .pure
    jacobianProduct := fun _ _ _ => .bind (baseSafe.jacobianProduct _ _ _) fun _ => .pure
    adjointProduct := fun _ _ _ => .bind (baseSafe.adjointProduct _ _ _) fun _ => .pure
    project := fun _ _ => .pure
    distance := fun _ => .pure
    proximal := fun _ _ _ => .bind (baseSafe.proximal _ _ _) fun _ =>
      .bind (baseSafe.project _ _) fun _ => .pure
    proximalWithValue := fun _ _ _ => .bind (baseSafe.proximalWithValue _ _ _) fun _ =>
      .bind (baseSafe.project _ _) fun _ => .pure }

theorem ProximalPoint.safe [Scalar.LawfulDivision α] {node : ProximalPoint α}
    (positive : 0 < node.step) : (node.hooks base).Safe penalties outside
      (@ProximalPoint.hooks α (.dividing quotient) node other) := by
  have nonzero : (node.step == 0) = false := Scalar.beq_eq_false_of_lt positive
  have value : ∀ x, @ProximalPoint.objective α (.dividing quotient) node x = node.objective x := by
    intro x
    let d := Vec.sub x node.anchor
    have factor : (Scalar.dividing quotient).div (@Scalar.half α (.dividing quotient)) node.step =
        Scalar.half / node.step := by
      rw [Scalar.half_dividing, Scalar.div_dividing quotient _ nonzero]
    exact congrArg (· * Vec.dot d d) factor
  have slope : ∀ x, @ProximalPoint.gradient α (.dividing quotient) node x = node.gradient x :=
    fun x => Vec.divide_dividing quotient _ nonzero
  have objective : ∀ x, DividesSafely penalties outside (pure (node.objective x))
      (pure (@ProximalPoint.objective α (.dividing quotient) node x)) := by
    intro x
    rw [value]
    exact .pure
  have gradient : ∀ x (_ : List α), DividesSafely penalties outside (pure (node.gradient x))
      (pure (@ProximalPoint.gradient α (.dividing quotient) node x)) := by
    intro x _
    rw [slope]
    exact .pure
  obtain ⟨kind, hooks, rfl⟩ := baseSafe.exists_eq
  exact {
    objective := objective
    gradient := gradient
    objectiveGradient := safe_separateObjectiveGradient objective gradient
    constraints := fun _ _ => baseSafe.constraints _ _
    objectiveConstraints := safe_separateObjectiveConstraints objective
      fun _ _ => baseSafe.constraints _ _
    jacobianProduct := fun _ _ _ => baseSafe.jacobianProduct _ _ _
    adjointProduct := fun _ _ _ => baseSafe.adjointProduct _ _ _
    project := fun _ _ => baseSafe.project _ _
    distance := safe_distanceToProjection quotient fun _ _ => baseSafe.project _ _
    proximal := fun _ _ _ => baseSafe.proximal _ _ _
    proximalWithValue := fun _ _ _ => baseSafe.proximalWithValue _ _ _ }

namespace AugmentedLagrangian

variable (node : AugmentedLagrangian α)

omit baseSafe in
theorem safe_modifyScratch (change : Scratch α → Scratch α) :
    DividesSafely penalties outside (node.modifyScratch base change)
      (node.modifyScratch base change) :=
  .modify fun _ => ⟨rfl, rfl, rfl, rfl, rfl, fun _ => rfl⟩

theorem safe_penaltyTerm [Scalar.LawfulDivision α]
    (positive : ∀ m ∈ (node.penaltyIn penalties).mu.entries, 0 < m) (values : List α) :
    DividesSafely penalties outside (node.penaltyTerm base values)
      (@penaltyTerm α (.dividing quotient) node other values) := by
  obtain ⟨kind, hooks, rfl⟩ := baseSafe.exists_eq
  refine .read fun store holds => .bind (node.safe_modifyScratch _) fun _ => .read fun later _ =>
    .bind (baseSafe.project _ _) fun projected => ?_
  have penalty : node.penalty store = node.penaltyIn penalties := by
    rw [← holds.penalties]
    rfl
  have nonzero : ∀ m ∈ (node.penalty store).mu.entries, (m == 0) = false := by
    rw [penalty]
    exact fun m member => Scalar.beq_eq_false_of_lt (positive m member)
  simp only [Scalar.half_dividing, Vec.div_dividing quotient _ nonzero]
  exact .bind (node.safe_modifyScratch _) fun _ => .pure

theorem safe_constraintValues (x : List α) :
    DividesSafely penalties outside (node.constraintValues base x)
      (@constraintValues α (.dividing quotient) node other x) := by
  obtain ⟨kind, hooks, rfl⟩ := baseSafe.exists_eq
  exact .read fun _ _ => .bind (baseSafe.constraints _ _) fun _ =>
    .bind (node.safe_modifyScratch _) fun _ => .pure

theorem safe_pullback (x estimate : List α) :
    DividesSafely penalties outside (node.pullback base x estimate)
      (@pullback α (.dividing quotient) node other x estimate) := by
  obtain ⟨kind, hooks, rfl⟩ := baseSafe.exists_eq
  exact .read fun _ _ => .bind (baseSafe.adjointProduct _ _ _) fun _ =>
    .bind (node.safe_modifyScratch _) fun _ => .pure

section

variable [Scalar.LawfulDivision α]
  (positive : ∀ m ∈ (node.penaltyIn penalties).mu.entries, 0 < m)
include positive

theorem safe_multiplierEstimate (x : Tensor α) (out : Option (Tensor α)) :
    DividesSafely penalties outside (node.multiplierEstimate base x out)
      (@multiplierEstimate α (.dividing quotient) node other x out) := by
  have values := node.safe_constraintValues baseSafe
  have term := node.safe_penaltyTerm baseSafe positive
  obtain ⟨kind, hooks, rfl⟩ := baseSafe.exists_eq
  exact .bind .check fun _ => .bind .check fun _ => .bind (values _) fun _ =>
    .bind (term _) fun _ => .pure

theorem safe : (node.hooks base).Safe penalties outside
    (@AugmentedLagrangian.hooks α (.dividing quotient) node other) := by
  have values := node.safe_constraintValues baseSafe
  have term := node.safe_penaltyTerm baseSafe positive
  have pullback := node.safe_pullback baseSafe
  obtain ⟨kind, hooks, rfl⟩ := baseSafe.exists_eq
  have objective : ∀ x, DividesSafely penalties outside (node.objective base x)
      (@AugmentedLagrangian.objective α (.dividing quotient) node ⟨_, kind, hooks⟩ x) := fun _ =>
    .read fun _ _ => .bind (baseSafe.objectiveConstraints _ _) fun _ =>
      .bind (node.safe_modifyScratch _) fun _ => .bind (term _) fun _ => .pure
  exact {
    objective := objective
    gradient := fun _ _ => .bind (values _) fun _ => .bind (term _) fun _ =>
      .bind (baseSafe.gradient _ _) fun _ => .bind (pullback _ _) fun _ => .pure
    objectiveGradient := fun _ _ => .bind (values _) fun _ => .bind (term _) fun _ =>
      .bind (baseSafe.objectiveGradient _ _) fun _ => .bind (pullback _ _) fun _ => .pure
    constraints := fun _ _ => .pure
    objectiveConstraints := safe_separateObjectiveConstraints objective fun _ _ => .pure
    jacobianProduct := fun _ _ _ => .pure
    adjointProduct := fun _ _ _ => .pure
    project := fun _ _ => .throw (by simp)
    distance := safe_distanceToProjection quotient fun _ _ => .throw (by simp)
    proximal := fun _ _ _ => baseSafe.proximal _ _ _
    proximalWithValue := fun _ _ _ => baseSafe.proximalWithValue _ _ _ }

end

end AugmentedLagrangian

namespace Feasibility

variable [Scalar.LawfulDivision α] (node : Feasibility α)

omit baseSafe [Scalar.LawfulDivision α] in
theorem safe_modifyCache (change : ResidualCache α → ResidualCache α) :
    DividesSafely penalties outside (node.modifyCache base change) (node.modifyCache base change) :=
  .modify fun _ => ⟨rfl, rfl, rfl, rfl, rfl, fun _ => rfl⟩

omit [Scalar.LawfulDivision α] in
theorem safe_residual (x : List α) : DividesSafely penalties outside (node.residual base x)
    (@residual α (.dividing quotient) node other x) := by
  obtain ⟨kind, hooks, rfl⟩ := baseSafe.exists_eq
  exact .read fun _ _ => .ite .pure <| .bind (baseSafe.constraints _ _) fun _ =>
    .bind (node.safe_modifyCache _) fun _ => .bind (baseSafe.project _ _) fun _ =>
      .bind (node.safe_modifyCache _) fun _ => .pure

theorem safe_infeasibility (x : Tensor α) : DividesSafely penalties outside
    (node.infeasibility base x) (@infeasibility α (.dividing quotient) node other x) := by
  refine .bind .check fun _ => .bind (node.safe_residual baseSafe _) fun r => ?_
  rw [Loss.value_dividing]
  exact .pure

omit [Scalar.LawfulDivision α] in
theorem safe_violation (x : Tensor α) : DividesSafely penalties outside
    (node.violation base x) (@violation α (.dividing quotient) node other x) :=
  .bind .check fun _ => .bind (node.safe_residual baseSafe _) fun _ => .pure

omit baseSafe in
theorem safe_proximalDistance (x : Tensor α) : DividesSafely penalties outside
    (node.proximalDistance x) (@proximalDistance α (.dividing quotient) node x) := by
  refine .bind .check fun _ => ?_
  simp only [Scalar.half_dividing]
  exact .pure

omit baseSafe in
theorem safe_unscaledDistance (x : Tensor α) : DividesSafely penalties outside
    (node.unscaledDistance x) (@unscaledDistance α (.dividing quotient) node x) := by
  refine .bind .check fun _ => ?_
  simp only [Scalar.half_dividing]
  exact .pure

section

variable (positive : 0 < node.huber.threshold)
include positive

theorem safe_infeasibilityGradient (x : Tensor α) (out : Option (Tensor α)) :
    DividesSafely penalties outside (node.infeasibilityGradient base x out)
      (@infeasibilityGradient α (.dividing quotient) node other x out) := by
  refine .bind .check fun _ => .bind (node.safe_residual baseSafe _) fun r => ?_
  obtain ⟨direction?, found⟩ := node.loss.direction_returns positive r
  rw [Loss.direction_dividing quotient _ positive, found]
  refine .bind (.ofExcept fun failed => ?_) fun direction? => ?_
  · cases failed
  · cases direction? with
    | none => exact .pure
    | some direction => exact baseSafe.adjointProduct _ _ _

theorem safe_ask (question : Question α) : DividesSafely penalties outside
    (node.ask base question) (@ask α (.dividing quotient) node other question) := by
  cases question with
  | infeasibility x => exact .bind (node.safe_infeasibility baseSafe x) fun _ => .pure
  | infeasibilityGradient x out =>
      exact .bind (node.safe_infeasibilityGradient baseSafe positive x out) fun _ => .pure
  | violation x => exact .bind (node.safe_violation baseSafe x) fun _ => .pure
  | proximalDistance x => exact .bind (node.safe_proximalDistance x) fun _ => .pure
  | unscaledDistance x => exact .bind (node.safe_unscaledDistance x) fun _ => .pure

theorem safe : (node.hooks base).Safe penalties outside
    (@Feasibility.hooks α (.dividing quotient) node other) := by
  have objective : ∀ x, DividesSafely penalties outside (node.objective base x)
      (@Feasibility.objective α (.dividing quotient) node other x) := fun _ =>
    .bind (node.safe_infeasibility baseSafe _) fun _ =>
      .ite (.bind (node.safe_proximalDistance _) fun _ => .pure) .pure
  have gradient : ∀ x out, DividesSafely penalties outside (node.gradient base x out)
      (@Feasibility.gradient α (.dividing quotient) node other x out) := fun _ _ =>
    .bind (node.safe_infeasibilityGradient baseSafe positive _ _) fun _ => .ite .pure .pure
  exact {
    objective := objective
    gradient := gradient
    objectiveGradient := safe_separateObjectiveGradient objective gradient
    constraints := fun _ _ => .pure
    objectiveConstraints := safe_separateObjectiveConstraints objective fun _ _ => .pure
    jacobianProduct := fun _ _ _ => .pure
    adjointProduct := fun _ _ _ => .pure
    project := fun _ _ => .throw (by simp)
    distance := safe_distanceToProjection quotient fun _ _ => .throw (by simp)
    proximal := fun _ _ _ => .ite (baseSafe.proximal _ _ _) .pure
    proximalWithValue := fun _ _ _ => .ite (baseSafe.proximalWithValue _ _ _) .pure }

end

end Feasibility

theorem Tailored.safe {node : Tailored α}
    (causes : ∀ {project v}, node.constraintSet = some (.projectedBy project) →
      project v = .error .divisionByZero → outside) :
    (node.hooks base).Safe penalties outside
      (@Tailored.hooks α (.dividing quotient) node other) := by
  have project : ∀ v out, DividesSafely penalties outside (node.project base v out)
      (@Tailored.project α (.dividing quotient) node other v out) := by
    intro v out
    unfold Tailored.project
    split
    · exact .throw (by simp)
    · exact baseSafe.project _ _
    · next given => exact .ofExcept fun failed => causes given failed
  exact {
    objective := fun _ => baseSafe.objective _
    gradient := fun _ _ => baseSafe.gradient _ _
    objectiveGradient := safe_separateObjectiveGradient (fun _ => baseSafe.objective _)
      fun _ _ => baseSafe.gradient _ _
    constraints := fun _ _ => baseSafe.constraints _ _
    objectiveConstraints := safe_separateObjectiveConstraints (fun _ => baseSafe.objective _)
      fun _ _ => baseSafe.constraints _ _
    jacobianProduct := fun _ _ _ => baseSafe.jacobianProduct _ _ _
    adjointProduct := fun _ _ _ => baseSafe.adjointProduct _ _ _
    project := project
    distance := safe_distanceToProjection quotient project
    proximal := by
      intro x step out
      change DividesSafely _ _ (node.proximal x step out) (node.proximal x step out)
      rw [Tailored.proximal]
      split
      · exact .throw (by simp)
      · exact .pure
    proximalWithValue := by
      intro x step out
      change DividesSafely _ _ (node.proximalWithValue x step out) (node.proximalWithValue x step out)
      rw [Tailored.proximalWithValue]
      split
      · exact .throw (by simp)
      · exact .pure }

end Reformulations

/-! ### Leaves -/

/-- An evaluation of the backend divides by zero at some point. -/
inductive Backend.DividesByZero (backend : Backend α) : Prop
  | objective {x : List α} (failed : backend.objective x = .error .divisionByZero)
  | gradient {x : List α} (failed : backend.gradient x = .error .divisionByZero)
  | constraints {x : List α} (failed : backend.constraints x = .error .divisionByZero)
  | jacobianProduct {x v : List α} (failed : backend.jacobianProduct x v = .error .divisionByZero)
  | adjointProduct {x v : List α} (failed : backend.adjointProduct x v = .error .divisionByZero)

section Leaves

variable {penalties : Table (Penalty α)} {outside : Prop}

theorem BackendLeaf.safe_call [Scalar α] (leaf : BackendLeaf α) (evaluation : Evaluation)
    {evaluate : Backend α → Except (Error α) β}
    (causes : evaluate leaf.backend = .error .divisionByZero → outside) :
    DividesSafely penalties outside (leaf.call evaluation evaluate)
      (leaf.call evaluation evaluate) where
  agrees := fun _ => rfl
  keeps := fun {store} holds => holds.of_sameFrame (leaf.keepsFrame_call evaluation evaluate store)
  cause := by
    intro store later holds failed
    have current : store.currentBackend leaf.backendSerial leaf.backend = leaf.backend := by
      rw [Store.currentBackend, holds.unrevised]
      rfl
    change (Eval.ofExcept (evaluate (store.currentBackend leaf.backendSerial leaf.backend))).run _ = _
      at failed
    rw [current] at failed
    cases answer : evaluate leaf.backend with
    | ok value =>
        rw [answer] at failed
        cases failed
    | error reason =>
        rw [answer] at failed
        cases failed
        exact causes answer

theorem BackendLeaf.safe [Scalar α] (leaf : BackendLeaf α) (quotient : α → α → α)
    (causes : leaf.backend.DividesByZero → outside) : leaf.hooks.Safe penalties outside
      (@BackendLeaf.hooks α (.dividing quotient) leaf) := by
  have objective : ∀ x, DividesSafely penalties outside (leaf.call .objective (·.objective x))
      (leaf.call .objective (·.objective x)) :=
    fun _ => leaf.safe_call .objective fun failed => causes (.objective failed)
  have gradient : ∀ x (_ : List α), DividesSafely penalties outside
      (leaf.call .gradient (·.gradient x)) (leaf.call .gradient (·.gradient x)) :=
    fun _ _ => leaf.safe_call .gradient fun failed => causes (.gradient failed)
  have constraints : ∀ x (_ : List α), DividesSafely penalties outside
      (leaf.call .constraints (·.constraints x)) (leaf.call .constraints (·.constraints x)) :=
    fun _ _ => leaf.safe_call .constraints fun failed => causes (.constraints failed)
  have jacobianProduct : ∀ x v, DividesSafely penalties outside
      (leaf.call .jacobianProduct (·.jacobianProduct x v))
      (leaf.call .jacobianProduct (·.jacobianProduct x v)) :=
    fun _ _ => leaf.safe_call .jacobianProduct fun failed => causes (.jacobianProduct failed)
  have adjointProduct : ∀ x v, DividesSafely penalties outside
      (leaf.call .adjointProduct (·.adjointProduct x v))
      (leaf.call .adjointProduct (·.adjointProduct x v)) :=
    fun _ _ => leaf.safe_call .adjointProduct fun failed => causes (.adjointProduct failed)
  exact {
    objective := objective
    gradient := gradient
    objectiveGradient := safe_separateObjectiveGradient objective gradient
    constraints := constraints
    objectiveConstraints := safe_separateObjectiveConstraints objective constraints
    jacobianProduct := fun x v _ => jacobianProduct x v
    adjointProduct := fun x v _ => adjointProduct x v
    project := fun _ _ => .pure
    distance := safe_distanceToProjection quotient fun _ _ => .pure
    proximal := fun _ _ _ => .pure
    proximalWithValue := fun _ _ _ => .pure }

/-- Expressions are evaluated as they are given, with whatever divisions they have. -/
theorem ExpressionLeaf.safe [Elementary α] (leaf : ExpressionLeaf α) :
    leaf.hooks.Safe penalties outside leaf.hooks where
  objective := fun _ => .pure
  gradient := fun _ _ => .pure
  objectiveGradient := safe_separateObjectiveGradient (fun _ => .pure) fun _ _ => .pure
  constraints := fun _ _ => .pure
  objectiveConstraints := safe_separateObjectiveConstraints (fun _ => .pure) fun _ _ => .pure
  jacobianProduct := fun _ _ _ => .pure
  adjointProduct := fun _ _ _ => .pure
  project := fun _ _ => .throw (by simp)
  distance := fun v => .bind (.throw (by simp)) fun _ => .pure
  proximal := fun _ _ _ => .throw (by simp)
  proximalWithValue := fun _ _ _ => .throw (by simp)

end Leaves

/-! ### Stacks -/

/-- Something that the stack was given divides by zero: an evaluation of a backend, or a projection onto
the set of a tailored layer. -/
def Model.DividesOutside : Model α → Prop
  | .backend leaf => leaf.backend.DividesByZero
  | .expression _ => False
  | .slack _ base | .proximalPoint _ base | .augmentedLagrangian _ base | .feasibility _ base =>
      base.DividesOutside
  | .tailored node base =>
      (∃ project v, node.constraintSet = some (.projectedBy project) ∧
        project v = .error .divisionByZero) ∨ base.DividesOutside

/-- The oracle of a model, with other results of the divisions by zero that the model makes itself.
Expressions keep the divisions that they were given with. -/
def Model.oracleDividing [Elementary α] (quotient : α → α → α) : Model α → Oracle α
  | .backend leaf => @BackendLeaf.oracle α (.dividing quotient) leaf
  | .expression leaf => leaf.oracle
  | .slack node base => @Slack.oracle α (.dividing quotient) node (base.oracleDividing quotient)
  | .proximalPoint node base =>
      @ProximalPoint.oracle α (.dividing quotient) node (base.oracleDividing quotient)
  | .augmentedLagrangian node base =>
      @AugmentedLagrangian.oracle α (.dividing quotient) node (base.oracleDividing quotient)
  | .feasibility node base =>
      @Feasibility.oracle α (.dividing quotient) node (base.oracleDividing quotient)
  | .tailored node base =>
      @Tailored.oracle α (.dividing quotient) node (base.oracleDividing quotient)

section Stacks

variable [Elementary α] {models : List (Model α)} {penalties : Table (Penalty α)}

theorem Model.safe [Scalar.LawfulDivision α] (family : Family models)
    (configured : ∀ model ∈ models, model.Configured)
    (positive : ∀ {node base}, .augmentedLagrangian node base ∈ models →
      ∀ m ∈ (node.penaltyIn penalties).mu.entries, 0 < m) (quotient : α → α → α)
    {model : Model α} (member : model ∈ models) {outside : Prop}
    (causes : model.DividesOutside → outside) :
    model.oracle.Safe penalties outside quotient (model.oracleDividing quotient) := by
  induction model with
  | backend leaf => exact (leaf.safe quotient causes).oracle quotient
  | expression leaf => exact leaf.safe.oracle quotient
  | slack node base ih =>
      exact (Slack.safe (ih (family.bases member rfl) causes)).oracle quotient
  | proximalPoint node base ih =>
      have step : 0 < node.step := configured _ member
      exact (ProximalPoint.safe (ih (family.bases member rfl) causes) step).oracle quotient
  | augmentedLagrangian node base ih =>
      exact (node.safe (ih (family.bases member rfl) causes) (positive member)).oracle quotient
  | feasibility node base ih =>
      have checked : node.Checked := configured _ member
      exact (node.safe (ih (family.bases member rfl) causes) checked.threshold).oracle quotient
  | tailored node base ih =>
      have base := ih (family.bases member rfl) fun divides => causes (.inr divides)
      have safe := Tailored.safe base fun given failed => causes (.inl ⟨_, _, given, failed⟩)
      exact safe.oracle quotient

theorem Oracle.Safe.call {quotient : α → α → α} {outside : Prop} {oracle other : Oracle α}
    (safe : oracle.Safe penalties outside quotient other) (call : Call α) :
    DividesSafely penalties outside (oracle.call call)
      (@Oracle.call α (.dividing quotient) other call) := by
  cases call with
  | objective x => exact .bind (safe.objective x) fun _ => .pure
  | gradient x out => exact .bind (safe.gradient x out) fun _ => .pure
  | objectiveGradient x out => exact .bind (safe.objectiveGradient x out) fun _ => .pure
  | constraints x out => exact .bind (safe.constraints x out) fun _ => .pure
  | objectiveConstraints x out => exact .bind (safe.objectiveConstraints x out) fun _ => .pure
  | jacobianProduct x v out => exact .bind (safe.jacobianProduct x v out) fun _ => .pure
  | adjointProduct x v out => exact .bind (safe.adjointProduct x v out) fun _ => .pure
  | project v out => exact .bind (safe.project v out) fun _ => .pure
  | distance v => exact .bind (safe.distance v) fun _ => .pure
  | proximal x step out => exact .bind (safe.proximal x step out) fun _ => .pure
  | proximalWithValue x step out => exact .bind (safe.proximalWithValue x step out) fun _ => .pure

end Stacks

/-! ### Every session -/

/-- A threshold that is not above zero is refused, whatever else is asked for. -/
theorem Feasibility.refuses_threshold [Scalar α] (base : Header α) {options : Options α}
    (name : Option String) (ownsBase : Bool) (invalid : ¬ 0 < options.threshold.getD 1)
    (store : Store α) : ∃ cause, (build base options name ownsBase).run store = .error cause store := by
  have refused : Eval.ValidatesAt store (fun _ _ => False) (build base options name ownsBase) := by
    dsimp only [build]
    apply Eval.ValidatesAt.ofExcept_bind
    intro _ _
    split
    · simp only [pure_bind]
      apply Eval.ValidatesAt.refuse_if
      intro _
      apply Eval.ValidatesAt.refuse_if
      intro _
      apply Eval.ValidatesAt.refuse_if
      intro accepted
      exact absurd (Decidable.not_not.1 accepted).1 invalid
    · exact .throw
  cases run : (build base options name ownsBase).run store with
  | ok node later => exact (refused.good node later run).elim
  | error cause later => exact ⟨cause, by rw [refused.clean cause later run]⟩

namespace Session

variable [Elementary α] {session : Session α}

/-- No divisor of an evaluation in the session is zero, for the scalars at hand. -/
structure NeverDividesByZero (session : Session α) : Prop where
  penalties : ∀ {node base}, .augmentedLagrangian node base ∈ session.models →
    ∀ m ∈ (node.penalty session.store).mu.entries, 0 < m ∧ (m == 0) = false
  step : ∀ {node base}, .proximalPoint node base ∈ session.models →
    0 < node.step ∧ (node.step == 0) = false
  /-- The direction of the norm is not asked for, or the norm is divided by. -/
  euclid : ∀ {node base}, .feasibility node base ∈ session.models → ∀ r : List α,
    Loss.euclid.direction node.huber r = .ok none ∨
      (Loss.euclid.direction node.huber r = .ok (some (Vec.divide r (Vec.norm r))) ∧
        (Scalar.smallestNormal < Vec.norm r ∨ Scalar.isUndefined (Vec.norm r) = true) ∧
        (Vec.norm r == 0) = false)
  /-- The direction of a Huber loss is a multiple of the residual, or the norm is divided by. -/
  huber : ∀ {node base}, .feasibility node base ∈ session.models → 0 < node.huber.threshold ∧
    ∀ r : List α, node.huber.direction r = .ok (Vec.scale node.huber.scale r) ∨
      (node.huber.direction r =
          .ok (Vec.scale (node.huber.threshold * node.huber.scale / Vec.norm r) r) ∧
        (node.huber.threshold < Vec.norm r ∨ Scalar.isUndefined (Vec.norm r) = true) ∧
        (Vec.norm r == 0) = false)
  /-- With other quotients by zero a call does the same. If it reports a division by zero, then that of
  something that the stack was given. -/
  calls : ∀ {model}, model ∈ session.models → ∀ call : Call α,
    (∀ quotient, (@Oracle.call α (.dividing quotient) (model.oracleDividing quotient) call).run
        session.store = (model.oracle.call call).run session.store) ∧
      ((model.oracle.call call).outcome session.store = .error .divisionByZero →
        model.DividesOutside)
  questions : ∀ {node base}, .feasibility node base ∈ session.models →
    ∀ question : Feasibility.Question α,
    (∀ quotient, (@Feasibility.ask α (.dividing quotient) node (base.oracleDividing quotient)
        question).run session.store = (node.ask base.oracle question).run session.store) ∧
      ((node.ask base.oracle question).outcome session.store = .error .divisionByZero →
        base.DividesOutside)
  estimates : ∀ {node base}, .augmentedLagrangian node base ∈ session.models → ∀ x out,
    (∀ quotient, (@AugmentedLagrangian.multiplierEstimate α (.dividing quotient) node
        (base.oracleDividing quotient) x out).run session.store =
      (node.multiplierEstimate base.oracle x out).run session.store) ∧
      ((node.multiplierEstimate base.oracle x out).outcome session.store = .error .divisionByZero →
        base.DividesOutside)
  /-- A Huber loss that divides by zero has a threshold that no problem is built with. -/
  thresholds : ∀ {huber : Huber α} {r : List α}, huber.direction r = .error .divisionByZero →
    ¬ 0 < huber.threshold ∧ ∀ base (options : Feasibility.Options α) name ownsBase store,
      options.threshold = some huber.threshold →
      ∃ cause, (Feasibility.build base options name ownsBase).run store = .error cause store

/-- Penalty data in force fit, whatever updates were accepted and refused. -/
theorem Sound.positive (sound : session.Sound) {node : AugmentedLagrangian α} {base : Model α}
    (member : .augmentedLagrangian node base ∈ session.models) :
    ∀ m ∈ (node.penaltyIn session.store.penalties).mu.entries, 0 < m :=
  (sound.ready.fits member).positive

theorem Sound.holds (sound : session.Sound) : session.store.Holds session.store.penalties :=
  ⟨rfl, sound.ready.unrevised⟩

/-- What is safe does the same with other quotients, and reports no division by zero of its own. -/
theorem Sound.of_safe (sound : session.Sound) {outside : Prop} {program : Eval α β}
    {other : (α → α → α) → Eval α β}
    (safe : ∀ quotient, DividesSafely session.store.penalties outside program (other quotient)) :
    (∀ quotient, (other quotient).run session.store = program.run session.store) ∧
      (program.outcome session.store = .error .divisionByZero → outside) := by
  refine ⟨fun quotient => (safe quotient).agrees sound.holds, fun failed => ?_⟩
  cases run : program.run session.store with
  | ok value later =>
      rw [Eval.outcome_of_run_ok run] at failed
      cases failed
  | error cause later =>
      rw [Eval.outcome_of_run_error run] at failed
      cases failed
      exact (safe fun a _ => a).cause sound.holds run

/-- In every session that can be reached, whatever was built, and whatever updates were accepted or
refused, no evaluation divides by zero. -/
theorem Reachable.never_divides_by_zero [Scalar.LawfulDivision α] (reachable : session.Reachable) :
    session.NeverDividesByZero := by
  have sound := reachable.sound
  have safe : ∀ {model}, model ∈ session.models → ∀ quotient, model.oracle.Safe
      session.store.penalties model.DividesOutside quotient (model.oracleDividing quotient) :=
    fun member quotient =>
      Model.safe sound.family reachable.configured sound.positive quotient member id
  have checked : ∀ {node base}, .feasibility node base ∈ session.models → node.Checked :=
    fun member => reachable.configured _ member
  exact {
    penalties := fun member m known =>
      have positive := sound.positive member m known
      ⟨positive, Scalar.beq_eq_false_of_lt positive⟩
    step := fun {node _} member =>
      have positive : 0 < node.step := reachable.configured _ member
      ⟨positive, Scalar.beq_eq_false_of_lt positive⟩
    euclid := by
      intro node base member r
      by_cases small : Vec.norm r ≤ Scalar.smallestNormal
      · exact .inl (if_pos small)
      · exact .inr ⟨if_neg small,
          Scalar.beyond_of_not_le Scalar.LawfulDivision.smallestNormal_nonneg small⟩
    huber := by
      intro node base member
      have positive := (checked member).threshold
      refine ⟨positive, fun r => ?_⟩
      by_cases small : Vec.norm r ≤ node.huber.threshold
      · exact .inl (if_pos small)
      · exact .inr ⟨Huber.direction_of_large positive small,
          Scalar.beyond_of_not_le (Scalar.le_of_pos positive) small⟩
    calls := fun member call => sound.of_safe fun quotient => (safe member quotient).call call
    questions := fun {node _} member question => sound.of_safe fun quotient =>
      node.safe_ask (safe (sound.family.bases member rfl) quotient) (checked member).threshold question
    estimates := fun {node _} member x out => sound.of_safe fun quotient =>
      node.safe_multiplierEstimate (safe (sound.family.bases member rfl) quotient)
        (sound.positive member) x out
    thresholds := by
      intro huber r failed
      have invalid : ¬ 0 < huber.threshold := by
        intro positive
        obtain ⟨d, found⟩ := Huber.direction_returns positive r
        cases found.symm.trans failed
      refine ⟨invalid, fun base options name ownsBase store given => ?_⟩
      refine Feasibility.refuses_threshold base name ownsBase ?_ store
      rw [given]
      exact invalid }

/-! ### Refused data -/

/-- A Huber loss with a negative threshold divides by the norm of an empty residual. -/
theorem direction_of_negative_threshold :
    (⟨-1, 1⟩ : Huber ℝ).direction [] = .error .divisionByZero := by
  have norm : Vec.norm ([] : List ℝ) = 0 := Real.sqrt_zero
  have large : ¬ Vec.norm ([] : List ℝ) ≤ -1 := by
    rw [norm]
    norm_num
  have zero : (Vec.norm ([] : List ℝ) == 0) = true := decide_eq_true norm
  exact (if_neg large).trans (if_pos zero)

/-- An augmented Lagrangian over the box, of which one update is accepted and the next one refused.
Beside it a feasibility problem with a Huber loss, which is asked for its gradient where the residual is
zero. -/
theorem never_divides_by_zero_box : ∃ (session : Session ℝ) (node : AugmentedLagrangian ℝ)
    (problem : Feasibility ℝ), session.Reachable ∧
      .augmentedLagrangian node (.backend boxLeaf) ∈ session.models ∧
      .feasibility problem (.backend boxLeaf) ∈ session.models ∧ problem.loss = .huber ∧
      (∀ m ∈ (node.penalty session.store).mu.entries, 0 < m ∧ (m == 0) = false) ∧
      (∀ quotient, (@Feasibility.ask ℝ (.dividing quotient) problem
          ((Model.backend boxLeaf).oracleDividing quotient)
          (.infeasibilityGradient (.vector [0]) none)).run session.store =
        (problem.ask (Model.backend boxLeaf).oracle
          (.infeasibilityGradient (.vector [0]) none)).run session.store) ∧
      ¬ 0 < (⟨-1, 1⟩ : Huber ℝ).threshold := by
  have isOf : AugmentedLagrangian.IsOf ⟨⟨0, ⟨1, 0, [0], [], true, "box-al"⟩, true⟩,
      .ofVectors (.vector [1, 1]) (.vector [1, -1])⟩ boxLeaf.header (.vector [1, 1])
      (.vector [1, -1]) none true := {
    constrained := rfl
    admissible := admissible_pair one_pos one_pos 1 (-1)
    header := rfl
    ownsBase := rfl
    penalty := rfl }
  obtain ⟨node, built, reachable, models, _, _⟩ :=
    reachable_boxed.exists_augmented boxLeaf_mem_boxed isOf
  have member : .augmentedLagrangian node (.backend boxLeaf) ∈ built.models := models ▸ .head _
  have known : .backend boxLeaf ∈ built.models := models ▸ .tail _ boxLeaf_mem_boxed
  let updates : List (Action ℝ) :=
    [.update node (.backend boxLeaf) (.vector [1, 1 + 1]) (.vector [0, 0]),
      .update node (.backend boxLeaf) (.vector [0, 1]) (.vector [0, 0])]
  have updated : (built.run updates).Reachable :=
    reachable.run ⟨member, mem_perform member _, trivial⟩
  obtain ⟨session, later, laterModels, _⟩ := Feasibility.exists_ofLoss updated
    (mem_run known updates) le_rfl rfl .huber ⟨1, 1⟩ one_pos one_pos
  have nodeMember : .augmentedLagrangian node (.backend boxLeaf) ∈ session.models :=
    laterModels ▸ .tail _ (mem_run member updates)
  have problemMember : .feasibility (Feasibility.ofLoss boxLeaf.header .huber ⟨1, 1⟩
      (built.run updates).store.next) (.backend boxLeaf) ∈ session.models := laterModels ▸ .head _
  have never := later.never_divides_by_zero
  exact ⟨session, node, _, later, nodeMember, problemMember, rfl, never.penalties nodeMember,
    (never.questions problemMember _).1, (never.thresholds direction_of_negative_threshold).1⟩

end Session

end CompositeModels
