/-
Module: CompositeModels.Proofs.Refusal
Purpose: What is refused has no effect. Every operation first goes through its length checks in an order
  of its own, then looks at its step if it takes one, and only then reaches the hooks of its model, which
  are all that asks a base, calls a backend or writes into a buffer. So a refused operation leaves the
  store as it was, and the buffer of its caller too. A construction that is refused leaves the session
  as it was.
Main exports: LengthCheck, FirstMisfit, Call.checks, Call.step?, Feasibility.Question.checks,
  AugmentedLagrangian.estimateChecks, RefusesAt, RefusesEitherWayAt, Writer.refuses_call,
  Feasibility.refuses_ask, AugmentedLagrangian.refuses_estimate, Session.RefusesCleanly,
  Session.refusals_have_no_effect
-/
import CompositeModels.Proofs.Construction.Validated
import CompositeModels.Proofs.InPlace
import CompositeModels.Proofs.Session

namespace CompositeModels

variable {α β γ σ : Type}

/-! ### Length checks -/

/-- Some arrays are to be vectors of one length. -/
structure LengthCheck where
  expected : Nat
  shapes : List Shape

/-- All arrays are vectors of the expected length. -/
def LengthCheck.Passes (check : LengthCheck) : Prop := ∀ shape ∈ check.shapes, shape = [check.expected]

instance (check : LengthCheck) : Decidable check.Passes :=
  inferInstanceAs (Decidable (∀ shape ∈ check.shapes, shape = [check.expected]))

/-- The first array that does not fit, in the order of the checks and of the arrays in each of them, with
its position in its check and the length that it should have. -/
inductive FirstMisfit : List LengthCheck → Nat → Shape → Nat → Prop where
  | here {check : LengthCheck} {rest : List LengthCheck} {position : Nat} {shape : Shape}
      (found : check.shapes[position]? = some shape) (misfit : shape ≠ [check.expected])
      (fits : ∀ earlier ∈ check.shapes.take position, earlier = [check.expected]) :
      FirstMisfit (check :: rest) position shape check.expected
  | later {check : LengthCheck} {rest : List LengthCheck} {position : Nat} {shape : Shape}
      {expected : Nat} (passes : check.Passes) (first : FirstMisfit rest position shape expected) :
      FirstMisfit (check :: rest) position shape expected

section Checks

variable [Scalar α]

/-- The checks of a call, in their order. Where no buffer is given, the one that is taken instead is
checked. -/
def Call.checks (header : Header α) : Call α → List LengthCheck
  | .objective x => [⟨header.nvar, [x.shape]⟩]
  | .gradient x out | .objectiveGradient x out | .proximal x _ out | .proximalWithValue x _ out =>
      [⟨header.nvar, [x.shape, (Oracle.buffer header.nvar out).shape]⟩]
  | .constraints x out | .objectiveConstraints x out =>
      [⟨header.nvar, [x.shape]⟩, ⟨header.ncon, [(Oracle.buffer header.ncon out).shape]⟩]
  | .jacobianProduct x v out =>
      [⟨header.nvar, [x.shape, v.shape]⟩, ⟨header.ncon, [(Oracle.buffer header.ncon out).shape]⟩]
  | .adjointProduct x v out =>
      [⟨header.nvar, [x.shape, (Oracle.buffer header.nvar out).shape]⟩, ⟨header.ncon, [v.shape]⟩]
  | .project v out => [⟨header.ncon, [v.shape, (Oracle.buffer header.ncon out).shape]⟩]
  | .distance v => [⟨header.ncon, [v.shape]⟩]

/-- The checks of a question to a feasibility problem. -/
def Feasibility.Question.checks (header : Header α) : Question α → List LengthCheck
  | .infeasibility x | .violation x | .proximalDistance x | .unscaledDistance x =>
      [⟨header.nvar, [x.shape]⟩]
  | .infeasibilityGradient x out =>
      [⟨header.nvar, [x.shape, (Oracle.buffer header.nvar out).shape]⟩]

/-- The checks of a multiplier estimate, which is as long as the constraints of the base. -/
def AugmentedLagrangian.estimateChecks (header base : Header α) (x : Tensor α)
    (out : Option (Tensor α)) : List LengthCheck :=
  [⟨header.nvar, [x.shape]⟩, ⟨base.ncon, [(Oracle.buffer base.ncon out).shape]⟩]

end Checks

/-- The step of a call that takes one. -/
def Call.step? : Call α → Option α
  | .proximal _ step _ | .proximalWithValue _ step _ => some step
  | _ => none

/-! ### Refused operations -/

namespace Eval

variable {check : LengthCheck} {store : Store α}

theorem run_checkVectors_of_passes (passes : check.Passes) :
    (checkVectors check.expected check.shapes).run store = .ok () store := by
  rw [checkVectors, checkVectors_eq_ok_iff.2 passes]
  rfl

theorem run_checkVectors_of_error {cause : Error α}
    (failed : CompositeModels.checkVectors check.expected check.shapes = .error cause) :
    (checkVectors check.expected check.shapes).run store = .error cause store := by
  rw [checkVectors, failed]
  rfl

end Eval

open Eval (run_checkVectors_of_passes run_checkVectors_of_error)

/-- From `state`, the computation is refused for the first array that does not fit. If all of them fit, it
is refused for a step that is not above zero. What is refused leaves the state as it was. -/
structure RefusesAt [Scalar α] (state : σ) (checks : List LengthCheck) (step? : Option α)
    (program : EStateM (Error α) σ β) : Prop where
  misfit : (∃ check ∈ checks, ¬ check.Passes) → ∃ position shape expected,
    FirstMisfit checks position shape expected ∧
      program.run state = .error (.lengthMismatch position shape expected) state
  step : (∀ check ∈ checks, check.Passes) → ∀ step, step? = some step → ¬ 0 < step →
    program.run state = .error (.nonpositiveStep step) state

namespace RefusesAt

variable [Scalar α] {state : σ} {checks : List LengthCheck} {step? : Option α}

/-- Without arrays and steps there is nothing to refuse. -/
theorem nothing {program : EStateM (Error α) σ β} : RefusesAt state [] none program where
  misfit := by
    rintro ⟨_, member, _⟩
    cases member
  step := by
    intro _ _ same
    cases same

/-- What is refused is not followed by anything. -/
theorem bind {program : EStateM (Error α) σ β} {next : β → EStateM (Error α) σ γ}
    (refuses : RefusesAt state checks step? program) :
    RefusesAt state checks step? (program >>= next) where
  misfit := by
    intro misfit
    obtain ⟨position, shape, expected, first, refused⟩ := refuses.misfit misfit
    exact ⟨position, shape, expected, first, run_bind_of_error refused⟩
  step := fun passes step same notPositive =>
    run_bind_of_error (refuses.step passes step same notPositive)

/-- What is refused without the buffer leaves the buffer as it was. -/
theorem lift {store : Store α} {program : Eval α β} (refuses : RefusesAt store checks step? program)
    (content : List α) :
    RefusesAt (⟨store, content⟩ : Workspace α) checks step? (InPlace.lift program) where
  misfit := by
    intro misfit
    obtain ⟨position, shape, expected, first, refused⟩ := refuses.misfit misfit
    exact ⟨position, shape, expected, first, InPlace.run_lift_of_error refused content⟩
  step := fun passes step same notPositive =>
    InPlace.run_lift_of_error (refuses.step passes step same notPositive) content

/-- What comes first is refused first. -/
theorem guard_bind {check : LengthCheck} {guard : EStateM (Error α) σ Unit}
    {next : Unit → EStateM (Error α) σ β} (passed : check.Passes → guard.run state = .ok () state)
    (failed : ∀ cause, checkVectors check.expected check.shapes = .error cause →
      guard.run state = .error cause state)
    (rest : RefusesAt state checks step? (next ())) :
    RefusesAt state (check :: checks) step? (guard >>= next) where
  misfit := by
    intro misfit
    by_cases passes : check.Passes
    · have later : ∃ other ∈ checks, ¬ other.Passes := by
        obtain ⟨other, member, fails⟩ := misfit
        rcases List.mem_cons.1 member with rfl | member
        · exact absurd passes fails
        · exact ⟨other, member, fails⟩
      obtain ⟨position, shape, expected, first, refused⟩ := rest.misfit later
      exact ⟨position, shape, expected, .later passes first,
        (run_bind_of_ok (passed passes)).trans refused⟩
    · have fails : ∃ shape ∈ check.shapes, shape ≠ [check.expected] := by
        simpa only [LengthCheck.Passes, not_forall, exists_prop] using passes
      obtain ⟨position, shape, found, different, earlier, refused⟩ :=
        exists_misfit_of_checkVectors (α := α) fails
      exact ⟨position, shape, check.expected, .here found different earlier,
        run_bind_of_error (failed _ refused)⟩
  step := by
    intro passes step same notPositive
    rw [run_bind_of_ok (passed (passes check (.head _)))]
    exact rest.step (fun other member => passes other (.tail _ member)) step same notPositive

/-- A length check leaves the store as it was, whether or not it passes. -/
theorem check_bind {store : Store α} {check : LengthCheck} {next : Unit → Eval α β}
    (rest : RefusesAt store checks step? (next ())) :
    RefusesAt store (check :: checks) step?
      (Eval.checkVectors check.expected check.shapes >>= next) :=
  guard_bind run_checkVectors_of_passes (fun _ => run_checkVectors_of_error) rest

/-- A length check has nothing to write. -/
theorem inPlace_check_bind {store : Store α} {content : List α} {check : LengthCheck}
    {next : Unit → InPlace α β}
    (rest : RefusesAt (⟨store, content⟩ : Workspace α) checks step? (next ())) :
    RefusesAt (⟨store, content⟩ : Workspace α) (check :: checks) step?
      (InPlace.checkVectors check.expected check.shapes >>= next) :=
  guard_bind (fun passes => InPlace.run_lift_of_ok (run_checkVectors_of_passes passes) content)
    (fun _ failed => InPlace.run_lift_of_error (run_checkVectors_of_error failed) content) rest

theorem requirePositiveStep {store : Store α} {step : α} :
    RefusesAt store [] (some step) (Oracle.requirePositiveStep step) where
  misfit := by
    rintro ⟨_, member, _⟩
    cases member
  step := by
    intro _ other same notPositive
    cases same
    rw [Oracle.requirePositiveStep, if_neg notPositive]
    rfl

end RefusesAt

/-- A computation that gives its results and one that writes them into a buffer are refused alike, and the
second leaves the buffer as it was, whatever it holds. -/
structure RefusesEitherWayAt [Scalar α] (store : Store α) (checks : List LengthCheck)
    (step? : Option α) (program : Eval α β) (inPlace : InPlace α γ) : Prop where
  given : RefusesAt store checks step? program
  written : ∀ content, RefusesAt (⟨store, content⟩ : Workspace α) checks step? inPlace

/-- An operation for a scalar has no use for a buffer. -/
theorem RefusesEitherWayAt.scalar [Scalar α] {store : Store α} {checks : List LengthCheck}
    {step? : Option α} {program : Eval α α} (refuses : RefusesAt store checks step? program) :
    RefusesEitherWayAt store checks step? (do return Answer.scalar (← program))
      (do return some (← InPlace.lift program)) where
  given := .bind refuses
  written content := .bind (.lift refuses content)

/-- Nothing is known of the hooks, so none of them is reached. -/
theorem Oracle.refuses_call [Scalar α] (oracle : Oracle α) (call : Call α) (store : Store α) :
    RefusesAt store (call.checks oracle.header) call.step? (oracle.call call) := by
  cases call with
  | objective x => exact .bind (.check_bind .nothing)
  | gradient x out => exact .bind (.check_bind .nothing)
  | objectiveGradient x out => exact .bind (.check_bind .nothing)
  | constraints x out => exact .bind (.check_bind (.check_bind .nothing))
  | objectiveConstraints x out => exact .bind (.check_bind (.check_bind .nothing))
  | jacobianProduct x v out => exact .bind (.check_bind (.check_bind .nothing))
  | adjointProduct x v out => exact .bind (.check_bind (.check_bind .nothing))
  | project v out => exact .bind (.check_bind .nothing)
  | distance v => exact .bind (.check_bind .nothing)
  | proximal x step out => exact .bind (.check_bind (.bind .requirePositiveStep))
  | proximalWithValue x step out => exact .bind (.check_bind (.bind .requirePositiveStep))

theorem Writer.refuses_call [Scalar α] (writer : Writer α) (call : Call α) (store : Store α) :
    RefusesEitherWayAt store (call.checks writer.header) call.step? (writer.toOracle.call call)
      (writer.call call) where
  given := writer.toOracle.refuses_call call store
  written := by
    intro content
    cases call with
    | objective x => exact .bind (.lift (.check_bind .nothing) content)
    | gradient x out => exact .bind (.inPlace_check_bind .nothing)
    | objectiveGradient x out => exact .bind (.inPlace_check_bind .nothing)
    | constraints x out => exact .bind (.inPlace_check_bind (.inPlace_check_bind .nothing))
    | objectiveConstraints x out => exact .bind (.inPlace_check_bind (.inPlace_check_bind .nothing))
    | jacobianProduct x v out => exact .bind (.inPlace_check_bind (.inPlace_check_bind .nothing))
    | adjointProduct x v out => exact .bind (.inPlace_check_bind (.inPlace_check_bind .nothing))
    | project v out => exact .bind (.inPlace_check_bind .nothing)
    | distance v => exact .bind (.lift (.check_bind .nothing) content)
    | proximal x step out =>
        exact .bind (.inPlace_check_bind (.bind (.lift .requirePositiveStep content)))
    | proximalWithValue x step out =>
        exact .bind (.inPlace_check_bind (.bind (.lift .requirePositiveStep content)))

theorem Feasibility.refuses_ask [Scalar α] (node : Feasibility α) (base : Writer α)
    (question : Question α) (store : Store α) :
    RefusesEitherWayAt store (question.checks node.header) none (node.ask base.toOracle question)
      (node.askInPlace base question) := by
  cases question with
  | infeasibility x => exact .scalar (.check_bind .nothing)
  | infeasibilityGradient x out =>
      exact ⟨.bind (.check_bind .nothing), fun _ => .bind (.inPlace_check_bind .nothing)⟩
  | violation x => exact .scalar (.check_bind .nothing)
  | proximalDistance x => exact .scalar (.check_bind .nothing)
  | unscaledDistance x => exact .scalar (.check_bind .nothing)

theorem AugmentedLagrangian.refuses_estimate [Scalar α] (node : AugmentedLagrangian α)
    (base : Writer α) (x : Tensor α) (out : Option (Tensor α)) (store : Store α) :
    RefusesEitherWayAt store (estimateChecks node.header base.header x out) none
      (node.multiplierEstimate base.toOracle x out) (node.estimateInPlace base x out) where
  given := .check_bind (.check_bind .nothing)
  written _ := .inPlace_check_bind (.inPlace_check_bind .nothing)

/-! ### Every session -/

/-- What is refused in a session has no effect on it, nor on the buffer of its caller. Nothing is asked of
the hooks, so it is so for everything that answers as a model does, whatever its hooks would do. -/
structure Session.RefusesCleanly [Elementary α] (session : Session α) : Prop where
  calls : ∀ (writer : Writer α) (call : Call α),
    RefusesEitherWayAt session.store (call.checks writer.header) call.step?
      (writer.toOracle.call call) (writer.call call)
  questions : ∀ (node : Feasibility α) (base : Writer α) (question : Feasibility.Question α),
    RefusesEitherWayAt session.store (question.checks node.header) none
      (node.ask base.toOracle question) (node.askInPlace base question)
  estimates : ∀ (node : AugmentedLagrangian α) (base : Writer α) (x : Tensor α)
      (out : Option (Tensor α)),
    RefusesEitherWayAt session.store
      (AugmentedLagrangian.estimateChecks node.header base.header x out) none
      (node.multiplierEstimate base.toOracle x out) (node.estimateInPlace base x out)
  constructions : ∀ (construction : Construction α) (cause : Error α),
    construction.build.outcome session.store = .error cause →
    session.perform (.build construction) = session

namespace Session

/-- In every session: a call, a question or an estimate with an array that does not fit is refused for the
first of them, and one with a step that is not above zero for its step. The store is left as it was: no
backend was called, no buffer of a model or penalty data were changed and nothing was recorded. So is the
buffer that the caller gave. A construction that is refused leaves the session as it was.

The operations in place are those of the models by `Model.follows_call`, `Feasibility.follows_ask` and
`AugmentedLagrangian.follows_estimate`. -/
theorem refusals_have_no_effect [Elementary α] (session : Session α) : session.RefusesCleanly where
  calls writer call := writer.refuses_call call _
  questions node base question := node.refuses_ask base question _
  estimates node base x out := node.refuses_estimate base x out _
  constructions := by
    intro construction cause refused
    simp only [perform]
    cases run : construction.build.run session.store with
    | ok model store =>
        rw [Eval.outcome_of_run_ok run] at refused
        cases refused
    | error other store => rw [(construction.validates_build session.store).clean other store run]

/-- Of a scalar in the place of a vector and a buffer without entries, the scalar is named, since the
second check is not made. A step of zero is refused, and the buffer keeps its entry. A header without
variables is refused. -/
theorem refusals_have_no_effect_box :
    FirstMisfit [⟨1, [[1], []]⟩, ⟨2, [[0]]⟩] 1 [] 1 ∧
      ((Model.backend boxLeaf).oracle.call
          (.jacobianProduct (.vector [5]) (.single 5) (some (.vector [])))).run boxed.store =
        .error (.lengthMismatch 1 [] 1) boxed.store ∧
      ((Model.backend boxLeaf).oracle.call (.proximal (.vector [5]) 0 none)).run boxed.store =
        .error (.nonpositiveStep 0) boxed.store ∧
      ((Model.backend boxLeaf).writer.call (.proximal (.vector [5]) 0 (some (.vector [7])))).run
          ⟨boxed.store, [7]⟩ =
        .error (.nonpositiveStep 0) ⟨boxed.store, [7]⟩ ∧
      boxed.perform (.build (.tailor (.backend boxLeaf) { nvar := some 0 } none none true)) =
        boxed := by
  obtain ⟨calls, _, _, constructions⟩ := refusals_have_no_effect boxed
  obtain ⟨position, shape, expected, first, refused⟩ :=
    (calls (Model.backend boxLeaf).writer
      (.jacobianProduct (.vector [5]) (.single 5) (some (.vector [])))).given.misfit
      ⟨⟨1, [[1], []]⟩, .head _, by decide⟩
  have named : ((Model.backend boxLeaf).oracle.call
      (.jacobianProduct (.vector [5]) (.single 5) (some (.vector [])))).run boxed.store =
      .error (.lengthMismatch 1 [] 1) boxed.store := rfl
  cases refused.symm.trans named
  have fits : ∀ check ∈ (Call.proximal (.vector [5]) 0 none).checks boxLeaf.header,
      check.Passes := by
    decide
  have fits' : ∀ check ∈ (Call.proximal (.vector [5]) 0 (some (.vector [7]))).checks boxLeaf.header,
      check.Passes := by
    decide
  exact ⟨first, named,
    (calls (Model.backend boxLeaf).writer (.proximal (.vector [5]) 0 none)).given.step fits 0 rfl
      (lt_irrefl 0),
    ((calls (Model.backend boxLeaf).writer (.proximal (.vector [5]) 0 (some (.vector [7])))).written
      [7]).step fits' 0 rfl (lt_irrefl 0),
    constructions _ (.invalidDimensions 0 2) rfl⟩

end Session

end CompositeModels
