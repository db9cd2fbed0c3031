/-
Module: CompositeModels.Proofs.Recomputation
Purpose: How often a feasibility problem asks its base. Every query that needs the residual is one plan:
  it checks its arguments, comes by the residual, and concludes from it. Coming by the residual is an
  attempt, which asks the base for nothing where the point is the last one, and otherwise for the
  constraint values once and, if they were returned, for their projection once. Only an attempt that
  gets both moves the last point. So the calls of a run can be told from its points and from what failed.
Main exports: Feasibility.Query, Feasibility.Query.evaluate, Feasibility.Query.plan,
  Feasibility.evaluate_eq_run_plan, Feasibility.Attempt, Feasibility.Attempts,
  Feasibility.exists_course_residual, Feasibility.attempts_history,
  Feasibility.Attempts.count_constraints, Session.Reachable.residual_is_recomputed_where_needed
-/
import CompositeModels.Proofs.Order
import CompositeModels.Proofs.Plan
import CompositeModels.Proofs.ProximalTower

namespace CompositeModels

variable {α β : Type}

theorem Oracle.buffer_some [Scalar α] (n : Nat) (out : Tensor α) : buffer n (some out) = out := rfl

namespace Feasibility

/-! ### Queries -/

/-- What needs the residual of a feasibility problem. -/
inductive Query (α : Type) where
  | infeasibility (x : Tensor α)
  | infeasibilityGradient (x : Tensor α) (out : Option (Tensor α))
  | violation (x : Tensor α)
  | objective (x : Tensor α)
  | gradient (x : Tensor α) (out : Option (Tensor α))

/-- The point that a query is about. -/
def Query.point : Query α → Tensor α
  | .infeasibility x | .infeasibilityGradient x _ | .violation x | .objective x | .gradient x _ => x

section Plans

variable [Scalar α]

/-- The shapes that are checked for a query: that of the point, and that of the buffer if there is
one. -/
def Query.shapes (nvar : Nat) : Query α → List Shape
  | .infeasibility x | .violation x | .objective x => [x.shape]
  | .infeasibilityGradient x out | .gradient x out => [x.shape, (Oracle.buffer nvar out).shape]

/-- The lengths of what a query is given are the declared ones. -/
def Query.Passes (nvar : Nat) (query : Query α) : Prop :=
  checkVectors (α := α) nvar (query.shapes nvar) = .ok ()

/-- Make a query. -/
def Query.evaluate (node : Feasibility α) (base : Oracle α) : Query α → Eval α (Answer α)
  | .infeasibility x => node.ask base (.infeasibility x)
  | .infeasibilityGradient x out => node.ask base (.infeasibilityGradient x out)
  | .violation x => node.ask base (.violation x)
  | .objective x => (node.oracle base).call (.objective x)
  | .gradient x out => (node.oracle base).call (.gradient x out)

variable (node : Feasibility α)

/-- The buffers, as far as they can be told from the number of constraints of the base. -/
def kept (ncon : Nat) (store : Store α) : ResidualCache α :=
  (store.residuals.get? node.serial).getD {
    constraints := Vec.zeros ncon
    residual := Vec.zeros ncon
    point := none }

/-- A store with changed buffers. -/
def keeping (ncon : Nat) (change : ResidualCache α → ResidualCache α) (store : Store α) :
    Store α :=
  { store with residuals := store.residuals.set node.serial (change (node.kept ncon store)) }

@[simp] theorem kept_keeping (ncon : Nat) (change : ResidualCache α → ResidualCache α)
    (store : Store α) :
    node.kept ncon (node.keeping ncon change store) = change (node.kept ncon store) := by
  simp [kept, keeping]

/-- From the constraint values at a point, the residual there. -/
def projectionPlan (ncon : Nat) (x values out : List α) : Plan α (List α) := do
  Plan.update (node.keeping ncon fun cache => { cache with constraints := values })
  let projected ← Plan.perform (.project (.vector values) (some (.vector out)))
  Plan.update (node.keeping ncon fun cache =>
    { cache with residual := Vec.sub values projected, point := some x })
  return Vec.sub values projected

/-- Come by the residual at a point. -/
def residualPlan (ncon : Nat) (x : List α) : Plan α (List α) := do
  let store ← Plan.fetch
  if (node.kept ncon store).point.any (x == ·) then
    return (node.kept ncon store).residual
  else
    let values ← Plan.perform
      (.constraints (.vector x) (some (.vector (node.kept ncon store).constraints)))
    node.projectionPlan ncon x values (node.kept ncon store).residual

/-- From the residual, the gradient of the loss. -/
def slopePlan (x out r : List α) : Plan α (List α) := do
  match ← Plan.finish (node.loss.direction node.huber r) with
  | none => return Vec.zeroed out
  | some direction =>
      Plan.perform (.adjointProduct (.vector x) (.vector direction) (some (.vector out)))

/-- From the residual, the answer to a query. -/
def Query.conclude (r : List α) : Query α → Plan α (Answer α)
  | .infeasibility _ => return .scalar (node.loss.value node.huber r)
  | .infeasibilityGradient x out => do
      let slope ← node.slopePlan x.entries (Oracle.buffer node.header.nvar out).entries r
      return .vector slope
  | .violation _ => return .scalar (Vec.maxAbs r)
  | .objective x => return .scalar (if node.withProximalTerm then
      node.loss.value node.huber r + node.weight * node.proximalDistanceMeaning x.entries
      else node.loss.value node.huber r)
  | .gradient x out => do
      let slope ← node.slopePlan x.entries (Oracle.buffer node.header.nvar out).entries r
      return .vector (if node.withProximalTerm then
        Vec.add slope (Vec.mul (Vec.scale node.weight node.scaling) (Vec.sub x.entries node.center))
        else slope)

/-- Check the arguments, come by the residual, and conclude. -/
def Query.plan (ncon : Nat) (query : Query α) : Plan α (Answer α) := do
  Plan.check node.header.nvar (query.shapes node.header.nvar)
  let r ← node.residualPlan ncon query.point.entries
  query.conclude node r

/-! ### Queries are runs of plans -/

theorem run_residualPlan (base : Oracle α) (x : List α) :
    (node.residualPlan base.header.ncon x).run base = node.residual base x := by
  funext store
  rw [residualPlan, Plan.run_bind, residual]
  change (Plan.run base (if (node.cache base store).point.any (x == ·) then _ else _)) store =
    (if (node.cache base store).point.any (x == ·) then _ else _ : Eval α (List α)) store
  split <;> rfl

/-- The gradient of the loss, once the residual is there. -/
def slope (base : Oracle α) (x out r : List α) : Eval α (List α) := do
  match ← Eval.ofExcept (node.loss.direction node.huber r) with
  | none => return Vec.zeroed out
  | some direction =>
      base.adjointProduct (.vector x) (.vector direction) (some (.vector out))

theorem run_slopePlan (base : Oracle α) (x out r : List α) :
    (node.slopePlan x out r).run base = node.slope base x out r := by
  rw [slopePlan, Plan.run_bind]
  refine congrArg (Eval.ofExcept _ >>= ·) (funext fun direction => ?_)
  cases direction with
  | none => rfl
  | some direction => exact Plan.run_perform base _

theorem run_plan (base : Oracle α) (query : Query α) :
    (query.plan node base.header.ncon).run base =
      (Eval.checkVectors node.header.nvar (query.shapes node.header.nvar) >>= fun _ =>
        node.residual base query.point.entries >>= fun r => (query.conclude node r).run base) := by
  rw [Query.plan, Plan.run_bind, Plan.run_check]
  refine congrArg (Eval.checkVectors _ _ >>= ·) (funext fun _ => ?_)
  rw [Plan.run_bind, run_residualPlan]

/-- Every query is the run of its plan, whatever the base is. What it checks once more passes. -/
theorem evaluate_eq_run_plan (base : Oracle α) (query : Query α) :
    query.evaluate node base = (query.plan node base.header.ncon).run base := by
  rw [run_plan]
  cases query with
  | infeasibility x =>
      change (node.infeasibility base x >>= _) = _
      rw [infeasibility, bind_assoc]
      simp only [bind_assoc, pure_bind]
      rfl
  | violation x =>
      change (node.violation base x >>= _) = _
      rw [violation]
      simp only [bind_assoc, pure_bind]
      rfl
  | infeasibilityGradient x out =>
      change (node.infeasibilityGradient base x out >>= _) = _
      rw [infeasibilityGradient]
      simp only [bind_assoc, Query.conclude, Plan.run_bind, run_slopePlan, slope]
      rfl
  | objective x =>
      change (Eval.checkVectors node.header.nvar [x.shape] >>= fun _ => node.objective base x.entries)
        >>= _ = _
      rw [bind_assoc]
      refine Eval.checkVectors_bind_congr fun checked => ?_
      simp only [objective, infeasibility, proximalDistance, bind_assoc, Tensor.shape_vector,
        Tensor.entries_vector, Eval.checkVectors_entries_bind checked, pure_bind]
      refine congrArg (node.residual base _ >>= ·) (funext fun r => ?_)
      by_cases active : node.withProximalTerm
      · simp only [Query.conclude, if_pos active]
        rfl
      · simp only [Query.conclude, if_neg active]
        rfl
  | gradient x out =>
      change (Eval.checkVectors node.header.nvar
        [x.shape, (Oracle.buffer node.header.nvar out).shape] >>= fun _ =>
          node.gradient base x.entries (Oracle.buffer node.header.nvar out).entries) >>= _ = _
      rw [bind_assoc]
      refine Eval.checkVectors_bind_congr fun checked => ?_
      simp only [gradient, infeasibilityGradient, bind_assoc, Oracle.buffer_some, Tensor.shape_vector,
        Tensor.entries_vector, Eval.checkVectors_entries_entries_bind checked]
      refine congrArg (node.residual base _ >>= ·) (funext fun r => ?_)
      by_cases active : node.withProximalTerm
      · simp only [Query.conclude, if_pos active, Plan.run_bind, run_slopePlan, slope, bind_assoc,
          pure_bind]
        rfl
      · simp only [Query.conclude, if_neg active, Plan.run_bind, run_slopePlan, slope, bind_assoc,
          pure_bind]
        rfl

/-! ### Runs of queries -/

/-- Make queries one after the other, whether they return or fail. -/
def afterQueries (node : Feasibility α) (base : Oracle α) : List (Query α) → Store α → Store α
  | [], store => store
  | query :: rest, store => afterQueries node base rest ((query.evaluate node base).after store)

/-- The calls that a query makes for its residual. -/
def Query.requests (node : Feasibility α) (base : Oracle α) (query : Query α) (store : Store α) :
    List (Asked α) :=
  ((query.plan node base.header.ncon).calls base store).filter Asked.forResidual

/-- The points of queries that are made one after the other, each with the calls for its residual. -/
def history (node : Feasibility α) (base : Oracle α) :
    List (Query α) → Store α → List (List α × List (Asked α))
  | [], _ => []
  | query :: rest, store =>
      (query.point.entries, query.requests node base store) ::
        history node base rest ((query.evaluate node base).after store)

end Plans

/-! ### Attempts -/

section Attempts

variable [Scalar α]

/-- How a problem comes by the residual at `x`: where the last point was, which calls it makes for the
residual, and where the last point is then. -/
inductive Attempt (x : List α) (last : Option (List α)) :
    List (Asked α) → Option (List α) → Prop
  /-- The point is the last one, entry by entry. -/
  | recalled (hit : last.any (x == ·) = true) : Attempt x last [] last
  /-- The base fails to give its constraint values. -/
  | constraintsFailed {out : Option (Tensor α)} (miss : last.any (x == ·) = false) :
      Attempt x last [⟨.constraints (.vector x) out, false⟩] last
  /-- The base fails to project them. -/
  | projectionFailed {out out' : Option (Tensor α)} {values : List α}
      (miss : last.any (x == ·) = false) :
      Attempt x last
        [⟨.constraints (.vector x) out, true⟩, ⟨.project (.vector values) out', false⟩] last
  /-- The base gives both, and the point becomes the last one. -/
  | computed {out out' : Option (Tensor α)} {values : List α} (miss : last.any (x == ·) = false) :
      Attempt x last
        [⟨.constraints (.vector x) out, true⟩, ⟨.project (.vector values) out', true⟩] (some x)

theorem Attempt.filter_forResidual {x : List α} {last next : Option (List α)}
    {calls : List (Asked α)} (attempt : Attempt x last calls next) :
    calls.filter Asked.forResidual = calls := by
  cases attempt <;> rfl

/-- Several attempts, with the point and the calls of each. -/
inductive Attempts : Option (List α) → List (List α × List (Asked α)) → Option (List α) → Prop
  | none {last : Option (List α)} : Attempts last [] last
  | next {x : List α} {last between final : Option (List α)} {calls : List (Asked α)}
      {rest : List (List α × List (Asked α))} (attempt : Attempt x last calls between)
      (others : Attempts between rest final) : Attempts last ((x, calls) :: rest) final

variable {x : List α} {last next : Option (List α)} {calls : List (Asked α)}
  {entries : List (List α × List (Asked α))}

/-- The base gave a projection, so the point of the entry became the last one. -/
def MovesPoint (entry : List α × List (Asked α)) : Bool :=
  entry.2.any fun asked => asked.forProjection && asked.returned

/-- A call for the residual failed. -/
def IsFailed (entry : List α × List (Asked α)) : Bool := entry.2.any fun asked => !asked.returned

/-- The base is asked for its constraint values if and only if the point is not the last one. -/
theorem Attempt.forConstraints_iff (attempt : Attempt x last calls next) :
    (∃ asked ∈ calls, asked.forConstraints = true) ↔ last.any (x == ·) = false := by
  cases attempt with
  | recalled hit => simp [hit]
  | constraintsFailed miss => simp [miss, Asked.forConstraints]
  | projectionFailed miss => simp [miss, Asked.forConstraints]
  | computed miss => simp [miss, Asked.forConstraints]

/-- The last point moves if and only if the base gave a projection, and then it is the point. -/
theorem Attempt.next_eq (attempt : Attempt x last calls next) :
    next = if MovesPoint (x, calls) then some x else last := by
  cases attempt <;> rfl

/-- The base is asked for its constraint values once for each move of the last point and once for each
failure. -/
theorem Attempts.count_constraints (attempts : Attempts last entries next) :
    (entries.flatMap (·.2)).countP Asked.forConstraints =
      entries.countP MovesPoint + entries.countP IsFailed := by
  induction attempts with
  | none => rfl
  | @next x last between final calls rest attempt others ih =>
      rw [List.flatMap_cons, List.countP_append, ih, List.countP_cons, List.countP_cons]
      have one : (x, calls).2.countP Asked.forConstraints =
          (if MovesPoint (x, calls) then 1 else 0) + if IsFailed (x, calls) then 1 else 0 := by
        cases attempt <;> rfl
      omega

/-- The base is asked for a projection once for each time that it gave its constraint values. -/
theorem Attempts.count_projections (attempts : Attempts last entries next) :
    (entries.flatMap (·.2)).countP Asked.forProjection =
      (entries.flatMap (·.2)).countP fun asked => asked.forConstraints && asked.returned := by
  induction attempts with
  | none => rfl
  | next attempt others ih =>
      rw [List.flatMap_cons, List.countP_append, List.countP_append, ih]
      cases attempt <;> rfl

/-- Going to a point where the constraint values fail and back costs one failed call, and nothing is
computed again. -/
theorem Attempts.of_detour {y : List α} {failure : Asked α} (hit : last.any (x == ·) = true)
    (failed : failure.returned = false)
    (attempts : Attempts last [(y, [failure]), (x, calls)] next) : calls = [] ∧ next = last := by
  cases attempts with
  | @next y last between final _ rest failing others =>
      have stays : between = last := by
        cases failing with
        | constraintsFailed miss => rfl
      subst stays
      cases others with
      | next back done =>
          cases done
          cases back with
          | recalled => exact ⟨rfl, rfl⟩
          | constraintsFailed miss => cases hit.symm.trans miss
          | projectionFailed miss => cases hit.symm.trans miss
          | computed miss => cases hit.symm.trans miss

end Attempts

section Families

variable [Elementary α] {models : List (Model α)} {penalties : Table (Penalty α)}
  {node : Feasibility α} {base : Model α} {store : Store α}

/-- Ready stores in which feasibility problems keep the given buffers. -/
structure Keeps (models : List (Model α)) (penalties : Table (Penalty α))
    (residuals : Table (ResidualCache α)) (store : Store α) : Prop where
  ready : store.Ready models penalties
  residuals : store.residuals = residuals

/-- What is asked about constraints never reaches a feasibility problem. -/
theorem Keeps.steady (family : Family models) (residuals : Table (ResidualCache α)) :
    Store.Steady models penalties (Keeps models penalties residuals) where
  ready := Keeps.ready
  setTally := fun backend tally keeps => ⟨keeps.ready.setTally backend tally, keeps.residuals⟩
  setScratch := fun member fits keeps => ⟨keeps.ready.setScratch family member fits, keeps.residuals⟩

theorem Keeps.realizes (family : Family models) (member : .feasibility node base ∈ models)
    (residuals : Table (ResidualCache α)) :
    base.oracle.RealizesConstraints (Keeps models penalties residuals) base.constraintMeaning :=
  Model.realizesConstraints_of_steady family (Keeps.steady family residuals)
    (family.bases member rfl)

/-- What a call about constraints leaves behind is ready, and no buffers were touched. -/
theorem Keeps.of_answers {program : Eval α β} {good : β → Prop} {answer : Except (Error α) β}
    (ready : store.Ready models penalties)
    (answers : Eval.Answers (Keeps models penalties store.residuals) True program good answer) :
    Keeps models penalties store.residuals (program.after store) :=
  (answers store ⟨ready, rfl⟩).keeps

theorem kept_congr {ncon : Nat} {first second : Store α}
    (same : first.residuals = second.residuals) : node.kept ncon first = node.kept ncon second := by
  rw [kept, kept, same]

theorem cache_eq_kept : node.cache base.oracle store = node.kept base.header.ncon store := by
  rw [← Model.oracle_header]
  rfl

/-- Keeping the constraint values leaves a store ready and the last point where it was. The projection
moves it if it is returned. -/
theorem exists_course_projection (family : Family models) (ready : store.Ready models penalties)
    (member : .feasibility node base ∈ models) (x out : List α) {values : List α}
    (length : values.length = base.header.ncon) :
    ∃ returned later, Plan.Course base.oracle (node.projectionPlan base.header.ncon x values out) store
        [⟨.project (.vector values) (some (.vector out)), returned⟩] later ∧
      (node.kept base.header.ncon later).point =
        if returned then some x else (node.kept base.header.ncon store).point := by
  let next := node.keeping base.header.ncon (fun cache => { cache with constraints := values }) store
  have pointNext : (node.kept base.header.ncon next).point =
      (node.kept base.header.ncon store).point := by
    rw [kept_keeping]
  have readyNext : next.Ready models penalties := by
    have sound : (node.kept base.header.ncon store).Sound base.constraintMeaning := by
      rw [← cache_eq_kept]
      exact ready.cache member
    exact ready.setResidual family member ⟨by simpa using length, sound.residual, sound.point⟩
  have keeps := Keeps.of_answers readyNext ((Keeps.realizes family member
    next.residuals).project (.vector values) (some (.vector out)))
  cases gave : (base.oracle.project (.vector values) (some (.vector out))).run next with
  | error cause later =>
      rw [Eval.after_of_run_error gave] at keeps
      refine ⟨false, later, .update_bind (.perform_bind_of_error gave), ?_⟩
      rw [kept_congr keeps.residuals, pointNext]
      rfl
  | ok projected later =>
      refine ⟨true, _, .update_bind (.perform_bind_of_ok gave (.update_bind (.finish _))), ?_⟩
      rw [kept_keeping]
      rfl

/-- Coming by the residual is one of the four attempts. -/
theorem exists_course_residual (family : Family models) (ready : store.Ready models penalties)
    (member : .feasibility node base ∈ models) (x : List α) :
    ∃ calls later, Plan.Course base.oracle (node.residualPlan base.header.ncon x) store calls later ∧
      Attempt x (node.kept base.header.ncon store).point calls
        (node.kept base.header.ncon later).point := by
  by_cases hit : (node.kept base.header.ncon store).point.any (x == ·) = true
  · refine ⟨[], store, .fetch_bind ?_, .recalled hit⟩
    rw [if_pos hit]
    exact .finish _
  have miss := Bool.eq_false_of_not_eq_true hit
  let out := some (Tensor.vector (node.kept base.header.ncon store).constraints)
  have realizes : base.oracle.RealizesConstraints (Keeps models penalties store.residuals)
      base.constraintMeaning := Keeps.realizes family member store.residuals
  have keeps := Keeps.of_answers ready (realizes.constraints (.vector x) out)
  cases gave : (base.oracle.constraints (.vector x) out).run store with
  | error cause later =>
      rw [Eval.after_of_run_error gave] at keeps
      have course : Plan.Course base.oracle (node.residualPlan base.header.ncon x) store
          [⟨.constraints (.vector x) out, false⟩] later := by
        refine .fetch_bind ?_
        rw [if_neg hit]
        exact .perform_bind_of_error gave
      refine ⟨_, _, course, ?_⟩
      rw [kept_congr keeps.residuals]
      exact .constraintsFailed miss
  | ok values between =>
      rw [Eval.after_of_run_ok gave] at keeps
      have fills := (realizes.constraints (.vector x) out store ⟨ready, rfl⟩).good values
        (Eval.outcome_of_run_ok gave)
      obtain ⟨returned, later, projection, point⟩ := exists_course_projection family keeps.ready
        member x (node.kept base.header.ncon store).residual (by simpa using fills.length)
      have course : Plan.Course base.oracle (node.residualPlan base.header.ncon x) store
          [⟨.constraints (.vector x) out, true⟩, ⟨.project (.vector values)
            (some (.vector (node.kept base.header.ncon store).residual)), returned⟩] later := by
        refine .fetch_bind ?_
        rw [if_neg hit]
        exact .perform_bind_of_ok gave projection
      refine ⟨_, _, course, ?_⟩
      rw [point, kept_congr keeps.residuals]
      cases returned with
      | false => exact .projectionFailed miss
      | true => exact .computed miss

/-! ### One query -/

/-- For the gradient of the loss the base may be asked for a product with its transposed Jacobian, but
for nothing that the residual is made of. -/
theorem exists_course_slope (family : Family models) (ready : store.Ready models penalties)
    (member : .feasibility node base ∈ models) (x out r : List α) :
    ∃ calls later, Plan.Course base.oracle (node.slopePlan x out r) store calls later ∧
      calls.filter Asked.forResidual = [] ∧ later.residuals = store.residuals := by
  cases directionEq : node.loss.direction node.huber r with
  | error cause =>
      have slopeEq : node.slopePlan x out r = Plan.finish (.error cause) := by
        rw [slopePlan, directionEq]
        rfl
      rw [slopeEq]
      exact ⟨_, _, .finish _, rfl, rfl⟩
  | ok direction? =>
      cases direction? with
      | none =>
          have slopeEq : node.slopePlan x out r = Plan.finish (.ok (Vec.zeroed out)) := by
            rw [slopePlan, directionEq]
            rfl
          rw [slopeEq]
          exact ⟨_, _, .finish _, rfl, rfl⟩
      | some direction =>
          have slopeEq : node.slopePlan x out r = Plan.perform
              (.adjointProduct (.vector x) (.vector direction) (some (.vector out))) := by
            rw [slopePlan, directionEq]
            rfl
          have keeps := Keeps.of_answers ready ((Keeps.realizes family member
            store.residuals).adjointProduct (.vector x) (.vector direction) (some (.vector out)))
          rw [slopeEq]
          refine ⟨_, _, ⟨rfl, rfl⟩, ?_, ?_⟩
          · rw [Plan.perform, Plan.calls]
            split <;> rfl
          · rw [Plan.run_perform]
            exact keeps.residuals

/-- Concluding from a residual asks for no other and leaves the kept one alone. -/
theorem exists_course_conclude (family : Family models) (ready : store.Ready models penalties)
    (member : .feasibility node base ∈ models) (query : Query α) (r : List α) :
    ∃ calls later, Plan.Course base.oracle (query.conclude node r) store calls later ∧
      calls.filter Asked.forResidual = [] ∧ later.residuals = store.residuals := by
  cases query with
  | infeasibility x => exact ⟨_, _, .finish _, rfl, rfl⟩
  | violation x => exact ⟨_, _, .finish _, rfl, rfl⟩
  | objective x => exact ⟨_, _, .finish _, rfl, rfl⟩
  | infeasibilityGradient x out =>
      obtain ⟨calls, later, course, aside⟩ := exists_course_slope family ready member x.entries
        (Oracle.buffer node.header.nvar out).entries r
      exact ⟨calls, later, course.map _, aside⟩
  | gradient x out =>
      obtain ⟨calls, later, course, aside⟩ := exists_course_slope family ready member x.entries
        (Oracle.buffer node.header.nvar out).entries r
      exact ⟨calls, later, course.map _, aside⟩

/-- A query that passes its check makes one attempt at the residual. -/
theorem exists_course_query (family : Family models) (ready : store.Ready models penalties)
    (member : .feasibility node base ∈ models) {query : Query α}
    (passes : query.Passes node.header.nvar) :
    ∃ calls later, Plan.Course base.oracle (query.plan node base.header.ncon) store calls later ∧
      Attempt query.point.entries (node.kept base.header.ncon store).point
        (calls.filter Asked.forResidual) (node.kept base.header.ncon later).point := by
  obtain ⟨calls, between, course, attempt⟩ :=
    exists_course_residual family ready member query.point.entries
  have planEq : query.plan node base.header.ncon =
      node.residualPlan base.header.ncon query.point.entries >>= (query.conclude node) := by
    rw [Query.plan, Plan.check, passes]
    rfl
  rw [planEq]
  cases run : ((node.residualPlan base.header.ncon query.point.entries).run base.oracle).run store with
  | error cause later =>
      obtain rfl : later = between := (Eval.after_of_run_error run).symm.trans course.after
      refine ⟨calls, later, .bind_of_error run course.calls, ?_⟩
      rw [attempt.filter_forResidual]
      exact attempt
  | ok r later =>
      obtain rfl : later = between := (Eval.after_of_run_ok run).symm.trans course.after
      have readyLater : later.Ready models penalties := by
        have keeps := (answers_residual family member (x := query.point.entries) store ready).keeps
        rw [← run_residualPlan, Model.oracle_header, Eval.after_of_run_ok run] at keeps
        exact keeps
      obtain ⟨others, last, concluded, none, residuals⟩ :=
        exists_course_conclude family readyLater member query r
      refine ⟨calls ++ others, last, .bind_of_ok run course.calls concluded, ?_⟩
      rw [List.filter_append, none, List.append_nil, attempt.filter_forResidual,
        kept_congr residuals]
      exact attempt

/-- Every query leaves a ready store behind. -/
theorem ready_after_query (family : Family models) (ready : store.Ready models penalties)
    (member : .feasibility node base ∈ models) (query : Query α) :
    ((query.evaluate node base.oracle).after store).Ready models penalties := by
  cases query with
  | infeasibility x => exact (answers_ask family member (.infeasibility x) store ready).keeps
  | infeasibilityGradient x out =>
      exact (answers_ask family member (.infeasibilityGradient x out) store ready).keeps
  | violation x => exact (answers_ask family member (.violation x) store ready).keeps
  | objective x => exact (Model.answers_call family member (.objective x) store ready).keeps
  | gradient x out => exact (Model.answers_call family member (.gradient x out) store ready).keeps

/-- A run of queries that pass their checks is a run of attempts. -/
theorem attempts_history (family : Family models) (ready : store.Ready models penalties)
    (member : .feasibility node base ∈ models) {queries : List (Query α)}
    (passes : ∀ query ∈ queries, query.Passes node.header.nvar) :
    Attempts (node.kept base.header.ncon store).point (node.history base.oracle queries store)
      (node.kept base.header.ncon (node.afterQueries base.oracle queries store)).point := by
  induction queries generalizing store with
  | nil => exact .none
  | cons query rest ih =>
      rw [List.forall_mem_cons] at passes
      obtain ⟨calls, later, course, attempt⟩ := exists_course_query family ready member passes.1
      have after : (query.evaluate node base.oracle).after store = later := by
        rw [evaluate_eq_run_plan, Model.oracle_header]
        exact course.after
      have requests : query.requests node base.oracle store = calls.filter Asked.forResidual := by
        rw [Query.requests, Model.oracle_header, course.calls]
      have readyLater := after ▸ ready_after_query family ready member query
      rw [history, afterQueries, requests, after]
      exact .next attempt (ih readyLater passes.2)

/-- A problem that was just built has no last point. -/
theorem point_of_built {session : Session α} (sound : session.Sound) {options : Options α}
    {name : Option String} {ownsBase : Bool} {started : Store α}
    (built : (build base.header options name ownsBase).run session.store = .ok node started) :
    (node.cache base.oracle started).point = none := by
  cases builds base.header options name ownsBase with
  | refused cause run =>
      rw [run _ sound.ready.unrevised] at built
      cases built
  | granted template events run gives =>
      rw [run _ sound.ready.unrevised] at built
      cases built
      obtain ⟨unused, _⟩ := sound.ready.unused (Nat.le_refl session.store.next)
      have fresh : (session.store.issue 1 (events session.store.next)).residuals.get?
          ({ template with serial := session.store.next } : Feasibility α).serial = none := unused
      rw [cache, fresh]
      rfl

end Families

/-- What is asked with arguments that do not pass the check is refused at once. -/
theorem refused_query [Scalar α] (node : Feasibility α) (base : Oracle α) {query : Query α}
    (misfit : ¬ query.Passes node.header.nvar) (store : Store α) :
    query.requests node base store = [] ∧ (query.evaluate node base).after store = store := by
  rw [Query.requests, evaluate_eq_run_plan, Query.plan, Plan.check]
  cases checked : checkVectors (α := α) node.header.nvar (query.shapes node.header.nvar) with
  | ok => exact absurd checked misfit
  | error cause => exact ⟨rfl, rfl⟩

/-- The value and the gradient together are asked for one after the other. -/
theorem objectiveGradient_eq [Scalar α] (node : Feasibility α) (base : Oracle α) {x : Tensor α}
    {out : Option (Tensor α)} (passes : Query.Passes node.header.nvar (.gradient x out)) :
    (node.oracle base).objectiveGradient x out = (do
      let value ← (node.oracle base).objective x
      let slope ← (node.oracle base).gradient x out
      return (value, slope)) := by
  obtain ⟨shapeX, shapeOut⟩ := shapes_eq_of_check passes
  have passesX : Eval.checkVectors node.header.nvar [x.shape] = (pure () : Eval α Unit) := by
    rw [Eval.checkVectors, shapeX, checkVectors_self]
    rfl
  have passesBoth : Eval.checkVectors node.header.nvar
      [x.shape, (Oracle.buffer node.header.nvar out).shape] = (pure () : Eval α Unit) := by
    rw [Eval.checkVectors, shapeX, shapeOut, checkVectors_self_self]
    rfl
  change (Eval.checkVectors node.header.nvar [x.shape, (Oracle.buffer node.header.nvar out).shape]
      >>= fun _ => _) =
    ((Eval.checkVectors node.header.nvar [x.shape] >>= fun _ => _) >>= fun value =>
      (Eval.checkVectors node.header.nvar [x.shape, (Oracle.buffer node.header.nvar out).shape]
        >>= fun _ => _) >>= _)
  rw [passesX, passesBoth]
  rfl

/-- Where two points are equal, each entry is equal to another. -/
theorem exists_beq_of_mem {x y : List α} [BEq α] (equal : (x == y) = true) {a : α}
    (member : a ∈ x) : ∃ b, (a == b) = true := by
  induction x generalizing y with
  | nil => cases member
  | cons first rest ih =>
      cases y with
      | nil => cases equal
      | cons other others =>
          obtain ⟨firsts, rests⟩ := Bool.and_eq_true_iff.1 equal
          rcases List.mem_cons.1 member with rfl | member
          · exact ⟨other, firsts⟩
          · exact ih rests member

/-- A point with an undefined entry is never the last one. -/
theorem miss_of_undefined [Scalar α] [Scalar.LawfulEquality α] {x : List α}
    (undefined : ∃ a ∈ x, Scalar.isUndefined a = true) (last : Option (List α)) :
    last.any (x == ·) = false := by
  obtain ⟨a, member, undefined⟩ := undefined
  cases last with
  | none => rfl
  | some point =>
      refine Bool.eq_false_of_not_eq_true fun equal => ?_
      obtain ⟨b, same⟩ := exists_beq_of_mem (equal : (x == point) = true) member
      cases same.symm.trans (Scalar.beq_eq_false_of_undefined undefined)

end Feasibility

open Feasibility in
/-- In every session, a query to a feasibility problem that passes its check asks the base for its
constraint values if and only if its point is not, entry by entry, the last one at which the base gave
both the constraint values and their projection. It asks for the projection once if the values were
returned, and moves the last point if the projection was returned too. So in every run of queries the
base is asked for its constraint values once for each move of the last point and once for each
failure. -/
theorem Session.Reachable.residual_is_recomputed_where_needed [Elementary α]
    [Scalar.LawfulEquality α] {session : Session α} (reachable : session.Reachable)
    {node : Feasibility α} {base : Model α} (member : .feasibility node base ∈ session.models) :
    (∀ (query : Query α) (other : Oracle α), other.header = base.header →
      query.evaluate node other = (query.plan node base.header.ncon).run other) ∧
    (∀ (queries : List (Query α)), (∀ query ∈ queries, query.Passes node.header.nvar) →
      let entries := node.history base.oracle queries session.store
      Attempts (node.cache base.oracle session.store).point entries
        (node.cache base.oracle (node.afterQueries base.oracle queries session.store)).point ∧
      (entries.flatMap (·.2)).countP Asked.forConstraints =
        entries.countP MovesPoint + entries.countP IsFailed ∧
      (entries.flatMap (·.2)).countP Asked.forProjection =
        (entries.flatMap (·.2)).countP fun asked => asked.forConstraints && asked.returned) ∧
    (∀ (x : List α) (last next : Option (List α)) (calls : List (Asked α)),
      Attempt x last calls next →
      ((∃ asked ∈ calls, asked.forConstraints = true) ↔ last.any (x == ·) = false) ∧
      next = if MovesPoint (x, calls) then some x else last) ∧
    (∀ (x y : List α) (last next : Option (List α)) (failure : Asked α) (calls : List (Asked α)),
      last.any (x == ·) = true → failure.returned = false →
      Attempts last [(y, [failure]), (x, calls)] next → calls = [] ∧ next = last) ∧
    (∀ (query : Query α) (store : Store α), ¬ query.Passes node.header.nvar →
      query.requests node base.oracle store = [] ∧
      (query.evaluate node base.oracle).after store = store) ∧
    (∀ (x : Tensor α) (out : Option (Tensor α)),
      Query.Passes node.header.nvar (.gradient x out) →
      (node.oracle base.oracle).objectiveGradient x out = (do
        let value ← (node.oracle base.oracle).objective x
        let slope ← (node.oracle base.oracle).gradient x out
        return (value, slope))) ∧
    (∀ (x : List α) (last : Option (List α)), (∃ a ∈ x, Scalar.isUndefined a = true) →
      last.any (x == ·) = false) ∧
    ∀ {options : Options α} {name : Option String} {ownsBase : Bool} {new : Feasibility α}
      {started : Store α},
      (Feasibility.build base.header options name ownsBase).run session.store = .ok new started →
      (new.cache base.oracle started).point = none := by
  have sound := reachable.sound
  refine ⟨fun query other same => ?_, fun queries passes => ?_,
    fun x last next calls attempt => ⟨attempt.forConstraints_iff, attempt.next_eq⟩,
    fun x y last next failure calls hit failed attempts => attempts.of_detour hit failed,
    fun query store misfit => ?_,
    fun x out passes => objectiveGradient_eq node _ passes,
    fun x last undefined => miss_of_undefined undefined last,
    fun built => point_of_built sound built⟩
  · rw [← same]
    exact evaluate_eq_run_plan node other query
  · have attempts := attempts_history sound.family sound.ready member passes
    rw [cache_eq_kept, cache_eq_kept]
    exact ⟨attempts, attempts.count_constraints, attempts.count_projections⟩
  · exact refused_query node _ misfit store

/-! ### A base that fails at some points -/

namespace Session

/-- Three queries at `x = 1`, `x = 3` and again at `x = 1`, of which the second fails. -/
noncomputable def limitedQueries : List (Feasibility.Query ℝ) :=
  [.violation (.vector [1]), .objective (.vector [1 + 1 + 1]), .gradient (.vector [1]) none]

theorem residual_is_recomputed_where_needed_limited : ∃ session : Session ℝ, ∃ node,
    session.Reachable ∧ .feasibility node (.backend limitedLeaf) ∈ session.models ∧
      (limitedLeaf.oracle.constraints (.vector [1 + 1 + 1]) none).outcome session.store =
        .error (.evaluationFailed .constraints) ∧
      let entries := node.history limitedLeaf.oracle limitedQueries session.store
      Feasibility.Attempts (node.cache limitedLeaf.oracle session.store).point entries
        (node.cache limitedLeaf.oracle
          (node.afterQueries limitedLeaf.oracle limitedQueries session.store)).point ∧
      (entries.flatMap (·.2)).countP Asked.forConstraints =
        entries.countP Feasibility.MovesPoint + entries.countP Feasibility.IsFailed := by
  obtain ⟨later, reachable, models, _⟩ :=
    Feasibility.exists_default reachable_limited limitedLeaf_mem_limited le_rfl rfl
  have member : .feasibility (Feasibility.ofDefaults limitedLeaf.header limited.store.next)
      (.backend limitedLeaf) ∈ later.models := by
    rw [models]
    exact .head _
  have baseMember : .backend limitedLeaf ∈ later.models := by
    rw [models]
    exact .tail _ limitedLeaf_mem_limited
  have failing := reachable.sound.outcome_constraints baseMember (.vector [1 + 1 + 1]) none
  have runs := (reachable.residual_is_recomputed_where_needed member).2.1 limitedQueries (by
    intro query known
    simp only [limitedQueries, List.mem_cons, List.not_mem_nil, or_false] at known
    rcases known with rfl | rfl | rfl <;> rfl)
  refine ⟨later, _, reachable, member, failing.trans ?_, runs.1, runs.2.1⟩
  have beyond : ¬ Vec.total [(1 + 1 + 1 : ℝ)] ≤ 1 := by
    rw [Vec.total_eq_sum, List.sum_singleton]
    norm_num
  exact (ConstraintMeaning.constraintsAt_vector rfl).trans (if_neg beyond)

end Session

end CompositeModels
