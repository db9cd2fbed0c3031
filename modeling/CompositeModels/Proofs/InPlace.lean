/-
Module: CompositeModels.Proofs.InPlace
Purpose: Operations that write into the buffer of their caller do what the operations of the oracle do.
  They return or fail alike and leave the same store behind, and after a return the buffer holds the
  final content. The layers are related hook by hook, through rules for each way to go on with a buffer,
  and a stack by induction.
Main exports: InPlace.Follows, WriteHooks.Realizes, Writer.Realizes, WriteHooks.Realizes.writer,
  Model.realizes_writer, Call.workBuffer, Writer.call, Model.follows_call, Feasibility.askInPlace,
  Feasibility.follows_ask, AugmentedLagrangian.estimateInPlace, AugmentedLagrangian.follows_estimate
-/
import CompositeModels.Model.InPlace
import CompositeModels.Proofs.Calls

namespace CompositeModels

variable {α β γ δ ε : Type}

/-! ### Following -/

/-- From a buffer with the content `out`, the program does what `value` does, and from a result one can
tell what the program returns and what it leaves in the buffer. If it fails, the buffer may hold
anything. -/
structure InPlace.Follows (program : InPlace α β) (out : List α) (value : Eval α γ)
    (leaves : γ → β × List α) : Prop where
  returns : ∀ {store result later}, value.run store = .ok result later →
    program.run ⟨store, out⟩ = .ok (leaves result).1 ⟨later, (leaves result).2⟩
  fails : ∀ {store cause later}, value.run store = .error cause later →
    ∃ left, program.run ⟨store, out⟩ = .error cause ⟨later, left⟩

/-- The content is all that there is. -/
@[reducible] def InPlace.alone (content : List α) : Unit × List α := ((), content)

namespace InPlace

theorem run_lift_of_ok {program : Eval α β} {store later : Store α} {value : β}
    (run : program.run store = .ok value later) (out : List α) :
    (lift program).run ⟨store, out⟩ = .ok value ⟨later, out⟩ := by
  show lift program ⟨store, out⟩ = _
  rw [lift, run]

theorem run_lift_of_error {program : Eval α β} {store later : Store α} {cause : Error α}
    (run : program.run store = .error cause later) (out : List α) :
    (lift program).run ⟨store, out⟩ = .error cause ⟨later, out⟩ := by
  show lift program ⟨store, out⟩ = _
  rw [lift, run]

namespace Follows

variable {program : InPlace α β} {out : List α} {leaves : γ → β × List α}

theorem pure {value : β} {result : γ} (same : leaves result = (value, out)) :
    Follows (pure value) out (pure result) leaves where
  returns := by
    intro store _ later run
    cases run
    rw [same]
    rfl
  fails := by
    intro store cause later run
    cases run

theorem throw {cause : Error α} :
    Follows (throw cause : InPlace α β) out (throw cause : Eval α γ) leaves where
  returns := by
    intro store result later run
    cases run
  fails := by
    intro store _ later run
    cases run
    exact ⟨out, rfl⟩

/-- What does not use the buffer leaves it as it is. -/
theorem lift (program : Eval α β) : Follows (lift program) out program (·, out) where
  returns := fun run => run_lift_of_ok run out
  fails := fun run => ⟨out, run_lift_of_error run out⟩

theorem bind {first : InPlace α δ} {next : δ → InPlace α β} {value : Eval α γ}
    {next' : γ → Eval α ε} {between : γ → δ × List α} {leaves : ε → β × List α}
    (start : Follows first out value between)
    (rest : ∀ result, Follows (next (between result).1) (between result).2 (next' result) leaves) :
    Follows (first >>= next) out (value >>= next') leaves where
  returns := by
    intro store last later run
    cases begun : value.run store with
    | ok result middle =>
        rw [run_bind_of_ok begun] at run
        rw [run_bind_of_ok (start.returns begun)]
        exact (rest result).returns run
    | error cause middle => cases (run_bind_of_error begun).symm.trans run
  fails := by
    intro store cause later run
    cases begun : value.run store with
    | ok result middle =>
        rw [run_bind_of_ok begun] at run
        obtain ⟨left, failed⟩ := (rest result).fails run
        exact ⟨left, (run_bind_of_ok (start.returns begun)).trans failed⟩
    | error other middle =>
        cases (run_bind_of_error begun).symm.trans run
        obtain ⟨left, failed⟩ := start.fails begun
        exact ⟨left, run_bind_of_error failed⟩

/-- What is computed first without the buffer does not change it. -/
theorem lift_bind {first : Eval α δ} {next : δ → InPlace α β} {next' : δ → Eval α γ}
    (rest : ∀ value, Follows (next value) out (next' value) leaves) :
    Follows (InPlace.lift first >>= next) out (first >>= next') leaves :=
  .bind (.lift first) rest

/-- Both check the same lengths. -/
theorem check_bind {expected : Nat} {shapes : List Shape} {next : Unit → InPlace α β}
    {next' : Unit → Eval α γ} (rest : Follows (next ()) out (next' ()) leaves) :
    Follows (InPlace.checkVectors expected shapes >>= next) out
      (Eval.checkVectors expected shapes >>= next') leaves :=
  .lift_bind fun _ => rest

theorem shape_bind {next : Shape → InPlace α β} {value : Eval α γ}
    (rest : Follows (next [out.length]) out value leaves) :
    Follows (shape >>= next) out value leaves := ⟨rest.returns, rest.fails⟩

theorem change_bind {f : List α → List α} {next : Unit → InPlace α β} {value : Eval α γ}
    (rest : Follows (next ()) (f out) value leaves) :
    Follows (change f >>= next) out value leaves := ⟨rest.returns, rest.fails⟩

theorem change {f : List α → List α} {result : γ} {leaves : γ → Unit × List α}
    (same : leaves result = ((), f out)) : Follows (change f) out (Pure.pure result) leaves where
  returns := by
    intro store _ later run
    cases run
    rw [same]
    rfl
  fails := by
    intro store cause later run
    cases run

/-- A vector in the place of the content. -/
theorem write (content : List α) : Follows (write content) out (Pure.pure content) alone :=
  .change rfl

theorem write_bind {content : List α} {next : Unit → InPlace α β} {value : Eval α γ}
    (rest : Follows (next ()) content value leaves) :
    Follows (InPlace.write content >>= next) out value leaves :=
  .change_bind rest

/-- A result is written once it is there. -/
theorem fill (program : Eval α (List α)) : Follows (fill program) out program alone where
  returns := fun run => run_bind_of_ok (run_lift_of_ok run out)
  fails := fun run => ⟨out, run_bind_of_error (run_lift_of_error run out)⟩

theorem ite {condition : Prop} [Decidable condition] {other : InPlace α β} {value value' : Eval α γ}
    (yes : Follows program out value leaves) (no : Follows other out value' leaves) :
    Follows (if condition then program else other) out (if condition then value else value')
      leaves := by
  split
  · exact yes
  · exact no

/-- The two blocks are computed by two programs that follow two values, and the buffer is left with what
both of them left. -/
theorem onBlocks {n : Nat} {first : InPlace α β} {second : InPlace α Unit} {value : Eval α δ}
    {next : δ → Eval α ε} {between : δ → β × List α} {last : ε → Unit × List α}
    (join : δ → ε → γ) (start : Follows first (out.take n) value between)
    (rest : ∀ result, Follows second (out.drop n) (next result) last)
    (joins : ∀ result other,
      leaves (join result other) = ((between result).1, (between result).2 ++ (last other).2)) :
    Follows (onBlocks n first second) out
      (do
        let result ← value
        let other ← next result
        return join result other) leaves where
  returns := by
    intro store final later run
    cases begun : value.run store with
    | error cause middle => cases (run_bind_of_error begun).symm.trans run
    | ok result middle =>
        rw [run_bind_of_ok begun] at run
        cases ended : (next result).run middle with
        | error cause end' => cases (run_bind_of_error ended).symm.trans run
        | ok other end' =>
            rw [run_bind_of_ok ended] at run
            cases run
            show InPlace.onBlocks n first second ⟨store, out⟩ = _
            rw [InPlace.onBlocks, start.returns begun, joins]
            simp only [(rest result).returns ended]
  fails := by
    intro store cause later run
    cases begun : value.run store with
    | error other middle =>
        cases (run_bind_of_error begun).symm.trans run
        obtain ⟨left, failed⟩ := start.fails begun
        refine ⟨left ++ out.drop n, ?_⟩
        show InPlace.onBlocks n first second ⟨store, out⟩ = _
        rw [InPlace.onBlocks, failed]
    | ok result middle =>
        rw [run_bind_of_ok begun] at run
        cases ended : (next result).run middle with
        | ok other end' =>
            rw [run_bind_of_ok ended] at run
            cases run
        | error other end' =>
            cases (run_bind_of_error ended).symm.trans run
            obtain ⟨left, failed⟩ := (rest result).fails ended
            refine ⟨(between result).2 ++ left, ?_⟩
            show InPlace.onBlocks n first second ⟨store, out⟩ = _
            rw [InPlace.onBlocks, start.returns begun]
            simp only [failed]

end Follows

end InPlace

open InPlace (Follows alone)

/-! ### Layers -/

/-- What hooks write is what the hooks of an oracle give. -/
structure WriteHooks.Realizes (writes : WriteHooks α) (hooks : Hooks α) : Prop where
  gradient : ∀ x out, Follows (writes.gradient x) out (hooks.gradient x out) alone
  objectiveGradient : ∀ x out,
    Follows (writes.objectiveGradient x) out (hooks.objectiveGradient x out) id
  constraints : ∀ x out, Follows (writes.constraints x) out (hooks.constraints x out) alone
  objectiveConstraints : ∀ x out,
    Follows (writes.objectiveConstraints x) out (hooks.objectiveConstraints x out) id
  jacobianProduct : ∀ x v out,
    Follows (writes.jacobianProduct x v) out (hooks.jacobianProduct x v out) alone
  adjointProduct : ∀ x v out,
    Follows (writes.adjointProduct x v) out (hooks.adjointProduct x v out) alone
  project : ∀ v out, Follows (writes.project v) out (hooks.project v out) alone
  proximal : ∀ x step out, Follows (writes.proximal x step) out (hooks.proximal x step out) alone
  proximalWithValue : ∀ x step out,
    Follows (writes.proximalWithValue x step) out (hooks.proximalWithValue x step out) id

/-- What a writer leaves in a buffer that it was given is what its oracle gives for the buffer. -/
structure Writer.Realizes [Scalar α] (writer : Writer α) : Prop where
  gradient : ∀ x (out : Tensor α),
    Follows (writer.gradient x out.shape) out.entries (writer.toOracle.gradient x (some out)) alone
  objectiveGradient : ∀ x (out : Tensor α), Follows (writer.objectiveGradient x out.shape) out.entries
    (writer.toOracle.objectiveGradient x (some out)) id
  constraints : ∀ x (out : Tensor α), Follows (writer.constraints x out.shape) out.entries
    (writer.toOracle.constraints x (some out)) alone
  objectiveConstraints : ∀ x (out : Tensor α), Follows (writer.objectiveConstraints x out.shape)
    out.entries (writer.toOracle.objectiveConstraints x (some out)) id
  jacobianProduct : ∀ x v (out : Tensor α), Follows (writer.jacobianProduct x v out.shape) out.entries
    (writer.toOracle.jacobianProduct x v (some out)) alone
  adjointProduct : ∀ x v (out : Tensor α), Follows (writer.adjointProduct x v out.shape) out.entries
    (writer.toOracle.adjointProduct x v (some out)) alone
  project : ∀ v (out : Tensor α),
    Follows (writer.project v out.shape) out.entries (writer.toOracle.project v (some out)) alone
  proximal : ∀ x step (out : Tensor α), Follows (writer.proximal x step out.shape) out.entries
    (writer.toOracle.proximal x step (some out)) alone
  proximalWithValue : ∀ x step (out : Tensor α), Follows (writer.proximalWithValue x step out.shape)
    out.entries (writer.toOracle.proximalWithValue x step (some out)) id

/-- Both go through the same checks before they come to their hooks. -/
theorem WriteHooks.Realizes.writer [Scalar α] {writer : Writer α}
    (realizes : writer.writes.Realizes writer.hooks) : writer.Realizes where
  gradient x _ := .check_bind (realizes.gradient x.entries _)
  objectiveGradient x _ := .check_bind (realizes.objectiveGradient x.entries _)
  constraints x _ := .check_bind (.check_bind (.ite (realizes.constraints x.entries _) (.pure rfl)))
  objectiveConstraints x _ := .check_bind (.check_bind (realizes.objectiveConstraints x.entries _))
  jacobianProduct x v _ :=
    .check_bind (.check_bind (.ite (realizes.jacobianProduct x.entries v.entries _) (.pure rfl)))
  adjointProduct x v _ :=
    .check_bind (.check_bind (.ite (realizes.adjointProduct x.entries v.entries _) (.change rfl)))
  project v _ := .check_bind (.ite (realizes.project v.entries _) (.pure rfl))
  proximal x step _ := .check_bind (.lift_bind fun _ => realizes.proximal x.entries step _)
  proximalWithValue x step _ :=
    .check_bind (.lift_bind fun _ => realizes.proximalWithValue x.entries step _)

/-- Where the objective is evaluated first, only the gradient is written. -/
theorem InPlace.Follows.separateObjectiveGradient {objective : List α → Eval α α}
    {gradient : List α → InPlace α Unit} {gradient' : List α → List α → Eval α (List α)}
    (follows : ∀ x out, Follows (gradient x) out (gradient' x out) alone) (x out : List α) :
    Follows (WriteHooks.separateObjectiveGradient objective gradient x) out
      (Hooks.separateObjectiveGradient objective gradient' x out) id :=
  .lift_bind fun _ => .bind (follows x out) fun _ => .pure rfl

/-- Where the objective is evaluated first, only the constraints are written. -/
theorem InPlace.Follows.separateObjectiveConstraints {header : Header α}
    {objective : List α → Eval α α} {constraints : List α → InPlace α Unit}
    {constraints' : List α → List α → Eval α (List α)}
    (follows : ∀ x out, Follows (constraints x) out (constraints' x out) alone) (x out : List α) :
    Follows (WriteHooks.separateObjectiveConstraints header objective constraints x) out
      (Hooks.separateObjectiveConstraints header objective constraints' x out) id :=
  .lift_bind fun _ =>
    .ite (.bind (follows x out) fun _ => .pure rfl) (.pure rfl)

/-- What a backend hands over is written as it is. -/
theorem BackendLeaf.realizes [Scalar α] (leaf : BackendLeaf α) : leaf.writes.Realizes leaf.hooks where
  gradient _ _ := .fill _
  objectiveGradient := .separateObjectiveGradient fun _ _ => .fill _
  constraints _ _ := .fill _
  objectiveConstraints := .separateObjectiveConstraints fun _ _ => .fill _
  jacobianProduct _ _ _ := .fill _
  adjointProduct _ _ _ := .fill _
  project _ _ := .write _
  proximal _ _ _ := .write _
  proximalWithValue _ _ _ := .write_bind (.pure rfl)

theorem ExpressionLeaf.realizes [Elementary α] (leaf : ExpressionLeaf α) :
    leaf.writes.Realizes leaf.hooks where
  gradient _ _ := .write _
  objectiveGradient := .separateObjectiveGradient fun _ _ => .write _
  constraints _ _ := .write _
  objectiveConstraints := .separateObjectiveConstraints fun _ _ => .write _
  jacobianProduct _ _ _ := .write _
  adjointProduct _ _ _ := .write _
  project _ _ := .throw
  proximal _ _ _ := .throw
  proximalWithValue _ _ _ := .throw

section Reformulations

variable [Scalar α] {base : Writer α}

/-- The blocks of a vector that comes with a value. -/
def Slack.withValue (first : α × List α) (second : List α) : α × List α :=
  (first.1, first.2 ++ second)

/-- The slacks are taken away from what the base wrote. -/
theorem Slack.follows_constraints (realizes : base.Realizes) (x out : List α) :
    Follows (writeConstraints base x) out (constraints base.toOracle x out) alone :=
  .shape_bind <| .bind (realizes.constraints _ (.vector _)) fun _ => .change rfl

theorem Slack.realizes (realizes : base.Realizes) (header : Header α) :
    (writes base header).Realizes (hooks header base.toOracle) where
  gradient _ _ := .onBlocks (· ++ ·) (.shape_bind (realizes.gradient _ (.vector _)))
    (fun _ => .change rfl) fun _ _ => rfl
  objectiveGradient _ _ := .onBlocks withValue (.shape_bind (realizes.objectiveGradient _ (.vector _)))
    (fun _ => .change rfl) fun _ _ => rfl
  constraints := follows_constraints realizes
  objectiveConstraints := .separateObjectiveConstraints (follows_constraints realizes)
  jacobianProduct _ _ _ := .shape_bind <|
    .bind (realizes.jacobianProduct _ _ (.vector _)) fun _ => .change rfl
  adjointProduct _ v _ := .onBlocks (· ++ ·) (.shape_bind (realizes.adjointProduct _ _ (.vector _)))
    (fun _ => .write (Vec.neg v)) fun _ _ => rfl
  project _ _ := .change rfl
  proximal _ _ _ := .onBlocks (· ++ ·) (.shape_bind (realizes.proximal _ _ (.vector _)))
    (fun _ => .shape_bind (realizes.project _ (.vector _))) fun _ _ => rfl
  proximalWithValue _ _ _ := .onBlocks withValue
    (.shape_bind (realizes.proximalWithValue _ _ (.vector _)))
    (fun _ => .shape_bind (realizes.project _ (.vector _))) fun _ _ => rfl

theorem ProximalPoint.realizes (realizes : base.Realizes) (node : ProximalPoint α) :
    (node.writes base).Realizes (node.hooks base.toOracle) where
  gradient _ _ := .write_bind (.change rfl)
  objectiveGradient := .separateObjectiveGradient fun _ _ => .write_bind (.change rfl)
  constraints _ _ := .shape_bind (realizes.constraints _ (.vector _))
  objectiveConstraints := .separateObjectiveConstraints fun _ _ =>
    .shape_bind (realizes.constraints _ (.vector _))
  jacobianProduct _ _ _ := .shape_bind (realizes.jacobianProduct _ _ (.vector _))
  adjointProduct _ _ _ := .shape_bind (realizes.adjointProduct _ _ (.vector _))
  project _ _ := .shape_bind (realizes.project _ (.vector _))
  proximal _ _ _ := .shape_bind (realizes.proximal _ _ (.vector _))
  proximalWithValue _ _ _ := .shape_bind (realizes.proximalWithValue _ _ (.vector _))

theorem AugmentedLagrangian.realizes (realizes : base.Realizes) (node : AugmentedLagrangian α) :
    (node.writes base).Realizes (node.hooks base.toOracle) where
  gradient _ _ := .lift_bind fun _ => .lift_bind fun _ => .shape_bind <|
    .bind (realizes.gradient _ (.vector _)) fun _ => .lift_bind fun _ => .change rfl
  objectiveGradient _ _ := .lift_bind fun _ => .lift_bind fun _ => .shape_bind <|
    .bind (realizes.objectiveGradient _ (.vector _)) fun _ =>
      .lift_bind fun _ => .change_bind (.pure rfl)
  constraints _ _ := .pure rfl
  objectiveConstraints := .separateObjectiveConstraints fun _ _ => .pure rfl
  jacobianProduct _ _ _ := .pure rfl
  adjointProduct _ _ _ := .change rfl
  project _ _ := .throw
  proximal _ _ _ := .shape_bind (realizes.proximal _ _ (.vector _))
  proximalWithValue _ _ _ := .shape_bind (realizes.proximalWithValue _ _ (.vector _))

/-- The gradient of the loss does not come from a hook, and the gradient of the problem uses it. -/
theorem Feasibility.follows_infeasibilityGradient (realizes : base.Realizes) (node : Feasibility α)
    (x out : Tensor α) :
    Follows (node.writeInfeasibilityGradient base x out.shape) out.entries
      (node.infeasibilityGradient base.toOracle x (some out)) alone :=
  .check_bind <| .lift_bind fun _ => .lift_bind fun direction => by
    cases direction with
    | none => exact .change rfl
    | some direction => exact .shape_bind (realizes.adjointProduct _ _ (.vector _))

/-- The proximal term is added to what the loss wrote. -/
theorem Feasibility.follows_gradient (realizes : base.Realizes) (node : Feasibility α)
    (x out : List α) :
    Follows (node.writeGradient base x) out (node.gradient base.toOracle x out) alone :=
  .shape_bind <| .bind (follows_infeasibilityGradient realizes node (.vector x) (.vector out))
    fun _ => .ite (.change rfl) (.pure rfl)

theorem Feasibility.realizes (realizes : base.Realizes) (node : Feasibility α) :
    (node.writes base).Realizes (node.hooks base.toOracle) where
  gradient := follows_gradient realizes node
  objectiveGradient := .separateObjectiveGradient (follows_gradient realizes node)
  constraints _ _ := .pure rfl
  objectiveConstraints := .separateObjectiveConstraints fun _ _ => .pure rfl
  jacobianProduct _ _ _ := .pure rfl
  adjointProduct _ _ _ := .change rfl
  project _ _ := .throw
  proximal _ _ _ := .ite (.shape_bind (realizes.proximal _ _ (.vector _))) (.change rfl)
  proximalWithValue _ _ _ := .ite (.shape_bind (realizes.proximalWithValue _ _ (.vector _)))
    (.change_bind (.pure rfl))

theorem Tailored.realizes (realizes : base.Realizes) (node : Tailored α) :
    (node.writes base).Realizes (node.hooks base.toOracle) where
  gradient _ _ := .shape_bind (realizes.gradient _ (.vector _))
  objectiveGradient := .separateObjectiveGradient fun _ _ =>
    .shape_bind (realizes.gradient _ (.vector _))
  constraints _ _ := .shape_bind (realizes.constraints _ (.vector _))
  objectiveConstraints := .separateObjectiveConstraints fun _ _ =>
    .shape_bind (realizes.constraints _ (.vector _))
  jacobianProduct _ _ _ := .shape_bind (realizes.jacobianProduct _ _ (.vector _))
  adjointProduct _ _ _ := .shape_bind (realizes.adjointProduct _ _ (.vector _))
  project v out := by
    show Follows (node.writeProjection base v) out (node.project base.toOracle v out) alone
    unfold writeProjection project
    cases node.constraintSet with
    | none => exact .throw
    | some set =>
        cases set with
        | ofBase => exact .shape_bind (realizes.project _ (.vector _))
        | projectedBy project => exact .fill _
  proximal x step out := by
    show Follows (node.writeProximal x step) out (node.proximal x step out) alone
    unfold writeProximal proximal
    cases node.term with
    | none => exact .throw
    | some term => exact .change rfl
  proximalWithValue x step out := by
    show Follows (node.writeProximalWithValue x step) out (node.proximalWithValue x step out) id
    unfold writeProximalWithValue proximalWithValue
    cases node.term with
    | none => exact .throw
    | some term => exact .change_bind (.pure rfl)

end Reformulations

/-! ### Stacks -/

namespace Model

variable [Elementary α]

@[simp] theorem toOracle_writer (model : Model α) : model.writer.toOracle = model.oracle := by
  cases model <;> rfl

/-- Every model writes what its oracle gives. -/
theorem realizes_writer (model : Model α) : model.writer.Realizes := by
  induction model with
  | backend leaf => exact leaf.realizes.writer
  | expression leaf => exact leaf.realizes.writer
  | slack node base ih =>
      have layer := Slack.realizes ih node.header
      rw [toOracle_writer] at layer
      exact layer.writer
  | proximalPoint node base ih =>
      have layer := node.realizes ih
      rw [toOracle_writer] at layer
      exact layer.writer
  | augmentedLagrangian node base ih =>
      have layer := node.realizes ih
      rw [toOracle_writer] at layer
      exact layer.writer
  | feasibility node base ih =>
      have layer := node.realizes ih
      rw [toOracle_writer] at layer
      exact layer.writer
  | tailored node base ih =>
      have layer := node.realizes ih
      rw [toOracle_writer] at layer
      exact layer.writer

end Model

/-! ### Calls -/

/-- The buffer that a call is given, if it is given one. -/
def Call.out? : Call α → Option (Tensor α)
  | .objective _ | .distance _ => none
  | .gradient _ out | .objectiveGradient _ out | .constraints _ out | .objectiveConstraints _ out
  | .jacobianProduct _ _ out | .adjointProduct _ _ out | .project _ out | .proximal _ _ out
  | .proximalWithValue _ _ out => out

/-- The buffer that a call works on. Where none is given it is a new one, and that of a call for a scalar
has no entries. -/
def Call.workBuffer [Scalar α] (header : Header α) (call : Call α) : Tensor α :=
  Oracle.buffer (call.bufferLength header) call.out?

/-- The scalar of an answer and the content of its buffer. -/
def Answer.parts : Answer α → Option α × List α
  | .scalar value => (some value, [])
  | .vector content => (none, content)
  | .both value content => (some value, content)

/-- Do what a call asks for in a buffer of the shape `out`, and return the scalar that it asks for. -/
def Writer.callInto [Scalar α] (writer : Writer α) (out : Shape) : Call α → InPlace α (Option α)
  | .objective x => do return some (← InPlace.lift (writer.toOracle.objective x))
  | .gradient x _ => do
      writer.gradient x out
      return none
  | .objectiveGradient x _ => do return some (← writer.objectiveGradient x out)
  | .constraints x _ => do
      writer.constraints x out
      return none
  | .objectiveConstraints x _ => do return some (← writer.objectiveConstraints x out)
  | .jacobianProduct x v _ => do
      writer.jacobianProduct x v out
      return none
  | .adjointProduct x v _ => do
      writer.adjointProduct x v out
      return none
  | .project v _ => do
      writer.project v out
      return none
  | .distance v => do return some (← InPlace.lift (writer.toOracle.distance v))
  | .proximal x step _ => do
      writer.proximal x step out
      return none
  | .proximalWithValue x step _ => do return some (← writer.proximalWithValue x step out)

/-- Do what a call asks for in its buffer. -/
def Writer.call [Scalar α] (writer : Writer α) (call : Call α) : InPlace α (Option α) :=
  writer.callInto (call.workBuffer writer.header).shape call

/-- The vector of an answer is what the call leaves in its buffer. -/
theorem Writer.Realizes.call [Scalar α] {writer : Writer α} (realizes : writer.Realizes)
    (call : Call α) :
    Follows (writer.call call) (call.workBuffer writer.header).entries (writer.toOracle.call call)
      Answer.parts := by
  cases call with
  | objective x => exact .lift_bind fun _ => .pure rfl
  | gradient x out => exact .bind (realizes.gradient x _) fun _ => .pure rfl
  | objectiveGradient x out => exact .bind (realizes.objectiveGradient x _) fun _ => .pure rfl
  | constraints x out => exact .bind (realizes.constraints x _) fun _ => .pure rfl
  | objectiveConstraints x out => exact .bind (realizes.objectiveConstraints x _) fun _ => .pure rfl
  | jacobianProduct x v out => exact .bind (realizes.jacobianProduct x v _) fun _ => .pure rfl
  | adjointProduct x v out => exact .bind (realizes.adjointProduct x v _) fun _ => .pure rfl
  | project v out => exact .bind (realizes.project v _) fun _ => .pure rfl
  | distance v => exact .lift_bind fun _ => .pure rfl
  | proximal x step out => exact .bind (realizes.proximal x step _) fun _ => .pure rfl
  | proximalWithValue x step out =>
      exact .bind (realizes.proximalWithValue x step _) fun _ => .pure rfl

/-- Every model leaves in the buffer of a call what its oracle answers. -/
theorem Model.follows_call [Elementary α] (model : Model α) (call : Call α) :
    Follows (model.writer.call call) (call.workBuffer model.header).entries (model.oracle.call call)
      Answer.parts := by
  have follows := model.realizes_writer.call call
  rwa [toOracle_writer, oracle_header] at follows

namespace Feasibility

/-- The buffer that a question works on. That of a question for a scalar has no entries. -/
def Question.workBuffer [Scalar α] (header : Header α) : Question α → Tensor α
  | .infeasibilityGradient _ out => Oracle.buffer header.nvar out
  | .infeasibility _ | .violation _ | .proximalDistance _ | .unscaledDistance _ => .vector []

/-- Do what a question asks for in its buffer. -/
def askInPlace [Scalar α] (node : Feasibility α) (base : Writer α) :
    Question α → InPlace α (Option α)
  | .infeasibility x => do return some (← InPlace.lift (node.infeasibility base.toOracle x))
  | .infeasibilityGradient x out => do
      node.writeInfeasibilityGradient base x (Oracle.buffer node.header.nvar out).shape
      return none
  | .violation x => do return some (← InPlace.lift (node.violation base.toOracle x))
  | .proximalDistance x => do return some (← InPlace.lift (node.proximalDistance x))
  | .unscaledDistance x => do return some (← InPlace.lift (node.unscaledDistance x))

/-- Every feasibility problem leaves in the buffer of a question what it answers. -/
theorem follows_ask [Elementary α] (node : Feasibility α) (base : Model α) (question : Question α) :
    Follows (node.askInPlace base.writer question) (question.workBuffer node.header).entries
      (node.ask base.oracle question) Answer.parts := by
  rw [← base.toOracle_writer]
  cases question with
  | infeasibility x => exact .lift_bind fun _ => .pure rfl
  | infeasibilityGradient x out =>
      exact .bind (follows_infeasibilityGradient base.realizes_writer node x _) fun _ => .pure rfl
  | violation x => exact .lift_bind fun _ => .pure rfl
  | proximalDistance x => exact .lift_bind fun _ => .pure rfl
  | unscaledDistance x => exact .lift_bind fun _ => .pure rfl

end Feasibility

/-- Write a multiplier estimate into the buffer that is given for it, or into a new one. -/
def AugmentedLagrangian.estimateInPlace [Scalar α] (node : AugmentedLagrangian α) (base : Writer α)
    (x : Tensor α) (out : Option (Tensor α)) : InPlace α Unit :=
  node.writeMultiplierEstimate base x (Oracle.buffer base.header.ncon out).shape

/-- Every augmented Lagrangian leaves its estimate in the buffer for it. -/
theorem AugmentedLagrangian.follows_estimate [Elementary α] (node : AugmentedLagrangian α)
    (base : Model α) (x : Tensor α) (out : Option (Tensor α)) :
    Follows (node.estimateInPlace base.writer x out) (Oracle.buffer base.header.ncon out).entries
      (node.multiplierEstimate base.oracle x out) alone := by
  rw [← base.oracle_header, ← base.toOracle_writer]
  exact .check_bind <| .check_bind <| .lift_bind fun _ => .lift_bind fun _ => .change rfl

end CompositeModels
