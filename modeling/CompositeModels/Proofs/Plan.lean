/-
Module: CompositeModels.Proofs.Plan
Purpose: What a reformulation asks of its base, as data. A plan cannot see the base: it names each
  operation that it wants performed and goes on with the result. So the calls of a plan are those that it
  names, and an evaluation that is the run of a plan for every base makes exactly these, in this order.
Main exports: Call.Result, Oracle.perform, Plan, Plan.run, Asked, Plan.calls, Plan.run_bind,
  Plan.calls_bind_of_ok, Plan.calls_bind_of_error, Plan.Course, Plan.AsksOnce
-/
import CompositeModels.Proofs.Calls

namespace CompositeModels

variable {α β γ : Type}

/-- What a call hands back to the one who makes it. -/
@[reducible] def Call.Result : Call α → Type
  | .objective _ | .distance _ => α
  | .objectiveGradient .. | .objectiveConstraints .. | .proximalWithValue .. => α × List α
  | .gradient .. | .constraints .. | .jacobianProduct .. | .adjointProduct .. | .project ..
  | .proximal .. => List α

/-- Perform the operation that a call names. -/
def Oracle.perform [Scalar α] (oracle : Oracle α) : (call : Call α) → Eval α call.Result
  | .objective x => oracle.objective x
  | .gradient x out => oracle.gradient x out
  | .objectiveGradient x out => oracle.objectiveGradient x out
  | .constraints x out => oracle.constraints x out
  | .objectiveConstraints x out => oracle.objectiveConstraints x out
  | .jacobianProduct x v out => oracle.jacobianProduct x v out
  | .adjointProduct x v out => oracle.adjointProduct x v out
  | .project v out => oracle.project v out
  | .distance v => oracle.distance v
  | .proximal x step out => oracle.proximal x step out
  | .proximalWithValue x step out => oracle.proximalWithValue x step out

/-- A computation that has the store at hand and calls a base that it cannot see. -/
inductive Plan (α β : Type) where
  /-- Return a value, or fail. -/
  | finish (outcome : Except (Error α) β)
  /-- Look at the store. -/
  | read (next : Store α → Plan α β)
  /-- Change the store. -/
  | change (step : Store α → Store α) (rest : Plan α β)
  /-- Call the base. -/
  | ask (call : Call α) (next : call.Result → Plan α β)

namespace Plan

/-- Go on where a plan returns. -/
def andThen (next : β → Plan α γ) : Plan α β → Plan α γ
  | finish (.ok value) => next value
  | finish (.error cause) => finish (.error cause)
  | read step => read fun store => (step store).andThen next
  | change step rest => change step (rest.andThen next)
  | ask call step => ask call fun result => (step result).andThen next

instance instMonadPlan : Monad (Plan α) where
  pure value := finish (.ok value)
  bind plan next := plan.andThen next

/-- The store as it is now. -/
def fetch : Plan α (Store α) := read fun store => finish (.ok store)

/-- Change the store, and go on. -/
def update (step : Store α → Store α) : Plan α PUnit := change step (finish (.ok ⟨⟩))

/-- Call the base for its result. -/
def perform (call : Call α) : Plan α call.Result := ask call fun result => finish (.ok result)

/-- Check vector lengths. -/
def check (expected : Nat) (shapes : List Shape) : Plan α Unit :=
  finish (checkVectors expected shapes)

/-! ### Runs -/

section Run

variable [Scalar α] (oracle : Oracle α)

/-- Follow a plan with a base. -/
def run : Plan α β → Eval α β
  | finish outcome => Eval.ofExcept outcome
  | read next => fun store => (next store).run store
  | change step rest => fun store => rest.run (step store)
  | ask call next => oracle.perform call >>= fun result => (next result).run

theorem run_bind (plan : Plan α β) (next : β → Plan α γ) :
    (plan >>= next).run oracle = plan.run oracle >>= fun value => (next value).run oracle := by
  change (plan.andThen next).run oracle = _
  induction plan with
  | finish outcome => cases outcome <;> rfl
  | read step ih =>
      funext store
      exact congrFun (ih store) store
  | change step rest ih =>
      funext store
      exact congrFun ih (step store)
  | ask call step ih =>
      rw [andThen, run, run, bind_assoc]
      exact congrArg (oracle.perform call >>= ·) (funext ih)

theorem run_perform (call : Call α) : (perform call).run oracle = oracle.perform call :=
  bind_pure _

theorem run_check (expected : Nat) (shapes : List Shape) :
    (check expected shapes).run oracle = Eval.checkVectors expected shapes := rfl

end Run

end Plan

/-! ### Calls -/

/-- A call that was made, and whether it returned. -/
structure Asked (α : Type) where
  call : Call α
  returned : Bool

namespace Asked

/-- The base was asked for its constraint values. -/
def forConstraints (asked : Asked α) : Bool :=
  match asked.call with
  | .constraints .. => true
  | _ => false

/-- The base was asked for a projection. -/
def forProjection (asked : Asked α) : Bool :=
  match asked.call with
  | .project .. => true
  | _ => false

/-- The base was asked for what a residual is made of. -/
def forResidual (asked : Asked α) : Bool := asked.forConstraints || asked.forProjection

end Asked

namespace Plan

variable [Scalar α] (oracle : Oracle α)

/-- The calls that a plan makes from a store, the first one first. A call that fails is the last. -/
def calls : Plan α β → Store α → List (Asked α)
  | finish _, _ => []
  | read next, store => (next store).calls store
  | change step rest, store => rest.calls (step store)
  | ask call next, store =>
      match (oracle.perform call).run store with
      | .ok result later => ⟨call, true⟩ :: (next result).calls later
      | .error _ _ => [⟨call, false⟩]

theorem calls_perform_of_ok {call : Call α} {store later : Store α} {result : call.Result}
    (run : (oracle.perform call).run store = .ok result later) :
    (perform call).calls oracle store = [⟨call, true⟩] := by
  rw [perform, calls, run]
  rfl

theorem calls_perform_of_error {call : Call α} {store later : Store α} {cause : Error α}
    (run : (oracle.perform call).run store = .error cause later) :
    (perform call).calls oracle store = [⟨call, false⟩] := by
  rw [perform, calls, run]

/-- Where a plan returns, what follows makes its calls after those of the plan. -/
theorem calls_bind_of_ok {plan : Plan α β} {next : β → Plan α γ} {store later : Store α}
    {value : β} (run : (plan.run oracle).run store = .ok value later) :
    (plan >>= next).calls oracle store =
      plan.calls oracle store ++ (next value).calls oracle later := by
  change (plan.andThen next).calls oracle store = _
  induction plan generalizing store with
  | finish outcome =>
      cases outcome with
      | ok known =>
          cases run
          rfl
      | error cause => cases run
  | read step ih => exact ih store run
  | change step rest ih => exact ih run
  | ask call step ih =>
      rw [andThen, calls, calls]
      cases performed : (oracle.perform call).run store with
      | ok result between =>
          have rest := (run_bind_of_ok performed).symm.trans run
          exact congrArg (_ :: ·) (ih result rest)
      | error cause between => cases (run_bind_of_error performed).symm.trans run

/-- Where a plan fails, nothing follows. -/
theorem calls_bind_of_error {plan : Plan α β} {next : β → Plan α γ} {store later : Store α}
    {cause : Error α} (run : (plan.run oracle).run store = .error cause later) :
    (plan >>= next).calls oracle store = plan.calls oracle store := by
  change (plan.andThen next).calls oracle store = _
  induction plan generalizing store with
  | finish outcome =>
      cases outcome with
      | ok known => cases run
      | error known => rfl
  | read step ih => exact ih store run
  | change step rest ih => exact ih run
  | ask call step ih =>
      rw [andThen, calls, calls]
      cases performed : (oracle.perform call).run store with
      | ok result between =>
          have rest := (run_bind_of_ok performed).symm.trans run
          exact congrArg (_ :: ·) (ih result rest)
      | error other between => rfl

/-- What is only computed from the value of a plan makes no calls. -/
theorem calls_bind_pure (plan : Plan α β) (f : β → γ) (store : Store α) :
    (plan >>= fun value => pure (f value)).calls oracle store = plan.calls oracle store := by
  cases run : (plan.run oracle).run store with
  | ok value later => exact (calls_bind_of_ok oracle run).trans (List.append_nil _)
  | error cause later => exact calls_bind_of_error oracle run

/-- And it leaves the store as the plan did. -/
theorem after_bind_pure (plan : Plan α β) (f : β → γ) (store : Store α) :
    ((plan >>= fun value => pure (f value)).run oracle).after store =
      (plan.run oracle).after store := by
  rw [run_bind]
  cases run : (plan.run oracle).run store with
  | ok value later =>
      rw [Eval.after_of_run_ok run, Eval.after, run_bind_of_ok run]
      rfl
  | error cause later =>
      rw [Eval.after_of_run_error run, Eval.after_of_run_error (run_bind_of_error run)]

/-! ### Courses -/

/-- From `store`, the plan makes these calls and leaves that store behind, whether it returns or
fails. -/
structure Course (plan : Plan α β) (store : Store α) (calls : List (Asked α)) (later : Store α) :
    Prop where
  calls : plan.calls oracle store = calls
  after : (plan.run oracle).after store = later

namespace Course

variable {oracle} {store later : Store α} {calls : List (Asked α)}

theorem finish (outcome : Except (Error α) β) : Course oracle (.finish outcome) store [] store where
  calls := rfl
  after := by cases outcome <;> rfl

theorem fetch_bind {next : Store α → Plan α β}
    (rest : Course oracle (next store) store calls later) :
    Course oracle (fetch >>= next) store calls later := ⟨rest.calls, rest.after⟩

theorem update_bind {step : Store α → Store α} {next : PUnit → Plan α β}
    (rest : Course oracle (next ⟨⟩) (step store) calls later) :
    Course oracle (update step >>= next) store calls later := ⟨rest.calls, rest.after⟩

theorem map {plan : Plan α β} (course : Course oracle plan store calls later) (f : β → γ) :
    Course oracle (plan >>= fun value => pure (f value)) store calls later where
  calls := (calls_bind_pure oracle plan f store).trans course.calls
  after := (after_bind_pure oracle plan f store).trans course.after

/-- Where the first part returns, the second part goes on from there. -/
theorem bind_of_ok {plan : Plan α β} {next : β → Plan α γ} {between : Store α} {value : β}
    {first : List (Asked α)} (run : (plan.run oracle).run store = .ok value between)
    (known : plan.calls oracle store = first)
    (rest : Course oracle (next value) between calls later) :
    Course oracle (plan >>= next) store (first ++ calls) later where
  calls := by rw [calls_bind_of_ok oracle run, known, rest.calls]
  after := by
    rw [run_bind, Eval.after, run_bind_of_ok run]
    exact rest.after

/-- Where the first part fails, it is all that happens. -/
theorem bind_of_error {plan : Plan α β} {next : β → Plan α γ} {cause : Error α}
    (run : (plan.run oracle).run store = .error cause later)
    (known : plan.calls oracle store = calls) : Course oracle (plan >>= next) store calls later where
  calls := by rw [calls_bind_of_error oracle run, known]
  after := by
    rw [run_bind]
    exact Eval.after_of_run_error (run_bind_of_error run)

theorem perform_bind_of_ok {call : Call α} {next : call.Result → Plan α β} {between : Store α}
    {result : call.Result} (run : (oracle.perform call).run store = .ok result between)
    (rest : Course oracle (next result) between calls later) :
    Course oracle (perform call >>= next) store (⟨call, true⟩ :: calls) later :=
  bind_of_ok (by rw [run_perform, run]) (calls_perform_of_ok oracle run) rest

theorem perform_bind_of_error {call : Call α} {next : call.Result → Plan α β} {cause : Error α}
    (run : (oracle.perform call).run store = .error cause later) :
    Course oracle (perform call >>= next) store [⟨call, false⟩] later :=
  bind_of_error (by rw [run_perform, run]) (calls_perform_of_error oracle run)

end Course

/-! ### Single calls -/

/-- From `store` the plan makes one call, of the wanted kind, and it returns if and only if the call
does. -/
def AsksOnce (plan : Plan α β) (store : Store α) (wanted : Call α → Prop) : Prop :=
  ∃ call, wanted call ∧
    plan.calls oracle store = [⟨call, ((plan.run oracle).outcome store).isOk⟩]

namespace AsksOnce

variable {oracle} {store : Store α} {wanted : Call α → Prop}

theorem fetch_bind {next : Store α → Plan α β} (rest : AsksOnce oracle (next store) store wanted) :
    AsksOnce oracle (fetch >>= next) store wanted := rest

theorem update_bind {step : Store α → Store α} {next : PUnit → Plan α β}
    (rest : AsksOnce oracle (next ⟨⟩) (step store) wanted) :
    AsksOnce oracle (update step >>= next) store wanted := rest

/-- Nothing is asked after the call, and nothing can fail. -/
theorem perform_bind {call : Call α} {next : call.Result → Plan α β} (isWanted : wanted call)
    (settled : ∀ result later, (next result).calls oracle later = [] ∧
      (((next result).run oracle).outcome later).isOk = true) :
    AsksOnce oracle (perform call >>= next) store wanted := by
  refine ⟨call, isWanted, ?_⟩
  cases performed : (oracle.perform call).run store with
  | ok result later =>
      have run : ((perform call).run oracle).run store = .ok result later := by
        rw [run_perform, performed]
      rw [calls_bind_of_ok oracle run, calls_perform_of_ok oracle performed, (settled result later).1,
        run_bind, Eval.outcome, run_bind_of_ok run]
      exact congrArg (fun returned => [Asked.mk call returned]) (settled result later).2.symm
  | error cause later =>
      have run : ((perform call).run oracle).run store = .error cause later := by
        rw [run_perform, performed]
      rw [calls_bind_of_error oracle run, calls_perform_of_error oracle performed, run_bind,
        Eval.outcome, run_bind_of_error run]
      rfl

theorem perform {call : Call α} (isWanted : wanted call) :
    AsksOnce oracle (perform call) store wanted :=
  perform_bind isWanted fun _ _ => ⟨rfl, rfl⟩

/-- What holds of a failed call alone, and of a call that returned and all that follows it, holds of
the whole plan. -/
theorem bind_elim {plan : Plan α β} {next : β → Plan α γ}
    (asks : AsksOnce oracle plan store wanted)
    {motive : Bool → List (Asked α) → Prop}
    (failed : ∀ call, wanted call → motive false [⟨call, false⟩])
    (returned : ∀ call value later, wanted call →
      motive (((next value).run oracle).outcome later).isOk
        (⟨call, true⟩ :: (next value).calls oracle later)) :
    motive (((plan >>= next).run oracle).outcome store).isOk ((plan >>= next).calls oracle store) := by
  obtain ⟨call, isWanted, calls⟩ := asks
  cases run : (plan.run oracle).run store with
  | ok value later =>
      rw [Eval.outcome_of_run_ok run] at calls
      rw [calls_bind_of_ok oracle run, calls, run_bind, Eval.outcome, run_bind_of_ok run]
      exact returned call value later isWanted
  | error cause later =>
      rw [Eval.outcome_of_run_error run] at calls
      rw [calls_bind_of_error oracle run, calls, run_bind, Eval.outcome, run_bind_of_error run]
      exact failed call isWanted

end AsksOnce

end Plan

end CompositeModels
