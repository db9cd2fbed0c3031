/-
Module: CompositeModels.Proofs.Buffers
Purpose: A buffer that a caller hands in is written and never read. Two buffers of one shape make the
  same computation of every operation, with the same failures and the same effect on the store. Each
  reformulation hands parts of its buffer to its base and completes or changes what comes back, so the
  induction is on the stack, and it has to know which lengths the parts have.
  A buffer is a value beside the arguments of an operation and shares no memory with them. Nothing is said
  about an array that is handed in as the point and as the buffer at once.
Main exports: Overwrites, Hooks.WriteOnly, Oracle.WriteOnly, Hooks.WriteOnly.oracle, Model.writeOnly,
  Call.withBuffer, Oracle.WriteOnly.call, Session.Reachable.buffers_are_write_only
-/
import CompositeModels.Proofs.Lagrangian

namespace CompositeModels

variable {α : Type}

/-! ### Overwriting -/

/-- What an operation gives is the same for all buffers of length `n`. -/
def Overwrites {β : Type} (n : Nat) (operation : List α → β) : Prop :=
  ∀ ⦃first second : List α⦄, first.length = n → second.length = n → operation first = operation second

/-- What an operation gives depends on the shape of its buffer only, which may be refused. -/
def DependsOnShape {β : Type} (operation : Option (Tensor α) → β) : Prop :=
  ∀ ⦃first second : Tensor α⦄, first.shape = second.shape → operation first = operation second

/-- An operation that is asked with a vector as its buffer overwrites it. -/
theorem DependsOnShape.vector {β : Type} {operation : Option (Tensor α) → β}
    (depends : DependsOnShape operation) {first second : List α}
    (same : first.length = second.length) :
    operation (some (.vector first)) = operation (some (.vector second)) :=
  depends (by simp [same])

/-- Buffers that are not long enough for one entry have nothing to be read. -/
theorem Overwrites.of_empty {β : Type} {n : Nat} (empty : n = 0) {operation : List α → β} :
    Overwrites n operation := by
  intro first second hfirst hsecond
  rw [List.eq_nil_of_length_eq_zero (hfirst.trans empty),
    List.eq_nil_of_length_eq_zero (hsecond.trans empty)]

/-- Hooks of a model with `nvar` variables and `ncon` constraints that overwrite their buffers. -/
structure Hooks.WriteOnly (hooks : Hooks α) (nvar ncon : Nat) : Prop where
  gradient : ∀ x, Overwrites nvar (hooks.gradient x)
  objectiveGradient : ∀ x, Overwrites nvar (hooks.objectiveGradient x)
  constraints : ∀ x, Overwrites ncon (hooks.constraints x)
  jacobianProduct : ∀ x v, Overwrites ncon (hooks.jacobianProduct x v)
  adjointProduct : ∀ x v, Overwrites nvar (hooks.adjointProduct x v)
  project : ∀ v, Overwrites ncon (hooks.project v)
  proximal : ∀ x step, Overwrites nvar (hooks.proximal x step)
  proximalWithValue : ∀ x step, Overwrites nvar (hooks.proximalWithValue x step)

/-- Operations that look at nothing but the shape of a buffer that they are given. -/
structure Oracle.WriteOnly [Scalar α] (oracle : Oracle α) : Prop where
  gradient : ∀ x, DependsOnShape (oracle.gradient x)
  objectiveGradient : ∀ x, DependsOnShape (oracle.objectiveGradient x)
  constraints : ∀ x, DependsOnShape (oracle.constraints x)
  objectiveConstraints : ∀ x, DependsOnShape (oracle.objectiveConstraints x)
  jacobianProduct : ∀ x v, DependsOnShape (oracle.jacobianProduct x v)
  adjointProduct : ∀ x v, DependsOnShape (oracle.adjointProduct x v)
  project : ∀ v, DependsOnShape (oracle.project v)
  proximal : ∀ x step, DependsOnShape (oracle.proximal x step)
  proximalWithValue : ∀ x step, DependsOnShape (oracle.proximalWithValue x step)

/-! ### From hooks to oracles -/

/-- Computations that agree wherever a check passes agree after the check. -/
theorem Eval.checkVectors_bind_congr {β : Type} {expected : Nat} {shapes : List Shape}
    {first second : Unit → Eval α β}
    (same : CompositeModels.checkVectors (α := α) expected shapes = .ok () → first () = second ()) :
    (Eval.checkVectors expected shapes >>= first) = (Eval.checkVectors expected shapes >>= second) := by
  unfold Eval.checkVectors
  cases checked : CompositeModels.checkVectors (α := α) expected shapes with
  | ok => exact same checked
  | error cause => rfl

/-- A check passes for both of two buffers of one shape, and then both have the length asked for. -/
theorem Overwrites.entries {β : Type} {n : Nat} {operation : List α → β}
    (overwrites : Overwrites n operation) {first second : Tensor α}
    (same : first.shape = second.shape) (shape : second.shape = [n]) :
    operation first.entries = operation second.entries :=
  overwrites (Tensor.length_entries_of_shape (same.trans shape))
    (Tensor.length_entries_of_shape shape)

/-- An operation that hands an empty buffer back as it is overwrites it too. -/
theorem Overwrites.entries_or_empty {n : Nat} {operation : List α → Eval α (List α)}
    (overwrites : Overwrites n operation) {first second : Tensor α}
    (same : first.shape = second.shape) (shape : second.shape = [n]) :
    (if 0 < n then operation first.entries else pure first.entries) =
      if 0 < n then operation second.entries else pure second.entries := by
  split
  · exact overwrites.entries same shape
  · next none =>
      rw [Tensor.entries_eq_nil (same.trans shape) none, Tensor.entries_eq_nil shape none]

/-- Besides the hooks that write into buffers of their own, an oracle has a hook for the objective and
the constraints together. Without constraints it hands its buffer back. -/
theorem Hooks.WriteOnly.oracle [Scalar α] {model : Oracle α}
    (hooks : model.hooks.WriteOnly model.header.nvar model.header.ncon)
    (separate : model.hooks.objectiveConstraints =
      Hooks.separateObjectiveConstraints model.header model.hooks.objective
        model.hooks.constraints) : model.WriteOnly where
  gradient := by
    intro x first second same
    simp only [Oracle.gradient, Oracle.buffer, Option.getD_some, same]
    apply Eval.checkVectors_bind_congr
    intro checked
    exact (hooks.gradient x.entries).entries same (shapes_eq_of_check checked).2
  objectiveGradient := by
    intro x first second same
    simp only [Oracle.objectiveGradient, Oracle.buffer, Option.getD_some, same]
    apply Eval.checkVectors_bind_congr
    intro checked
    exact (hooks.objectiveGradient x.entries).entries same (shapes_eq_of_check checked).2
  constraints := by
    intro x first second same
    simp only [Oracle.constraints, Oracle.buffer, Option.getD_some, same]
    apply Eval.checkVectors_bind_congr
    intro _
    apply Eval.checkVectors_bind_congr
    intro checked
    exact (hooks.constraints x.entries).entries_or_empty same (shape_eq_of_check checked)
  objectiveConstraints := by
    intro x first second same
    simp only [Oracle.objectiveConstraints, Oracle.buffer, Option.getD_some, same, separate,
      Hooks.separateObjectiveConstraints]
    apply Eval.checkVectors_bind_congr
    intro _
    apply Eval.checkVectors_bind_congr
    intro checked
    have shape := shape_eq_of_check checked
    rw [(hooks.constraints x.entries).entries same shape]
    split
    · rfl
    · next none =>
        rw [Tensor.entries_eq_nil (same.trans shape) none, Tensor.entries_eq_nil shape none]
  jacobianProduct := by
    intro x v first second same
    simp only [Oracle.jacobianProduct, Oracle.buffer, Option.getD_some, same]
    apply Eval.checkVectors_bind_congr
    intro _
    apply Eval.checkVectors_bind_congr
    intro checked
    exact (hooks.jacobianProduct x.entries v.entries).entries_or_empty same
      (shape_eq_of_check checked)
  adjointProduct := by
    intro x v first second same
    simp only [Oracle.adjointProduct, Oracle.buffer, Option.getD_some, same]
    apply Eval.checkVectors_bind_congr
    intro checked
    have shape := (shapes_eq_of_check checked).2
    apply Eval.checkVectors_bind_congr
    intro _
    split
    · exact (hooks.adjointProduct x.entries v.entries).entries same shape
    · rw [Vec.zeroed_eq_zeros, Vec.zeroed_eq_zeros, Tensor.length_entries_of_shape shape,
        Tensor.length_entries_of_shape (same.trans shape)]
  project := by
    intro v first second same
    simp only [Oracle.project, Oracle.buffer, Option.getD_some, same]
    apply Eval.checkVectors_bind_congr
    intro checked
    exact (hooks.project v.entries).entries_or_empty same (shapes_eq_of_check checked).2
  proximal := by
    intro x step first second same
    simp only [Oracle.proximal, Oracle.buffer, Option.getD_some, same]
    apply Eval.checkVectors_bind_congr
    intro checked
    rw [(hooks.proximal x.entries step).entries same (shapes_eq_of_check checked).2]
  proximalWithValue := by
    intro x step first second same
    simp only [Oracle.proximalWithValue, Oracle.buffer, Option.getD_some, same]
    apply Eval.checkVectors_bind_congr
    intro checked
    rw [(hooks.proximalWithValue x.entries step).entries same (shapes_eq_of_check checked).2]

/-! ### Leaves -/

theorem BackendLeaf.writeOnly [Scalar α] (leaf : BackendLeaf α) :
    leaf.hooks.WriteOnly leaf.header.nvar leaf.header.ncon where
  gradient := fun _ _ _ _ _ => rfl
  objectiveGradient := fun _ _ _ _ _ => rfl
  constraints := fun _ _ _ _ _ => rfl
  jacobianProduct := fun _ _ _ _ _ _ => rfl
  adjointProduct := fun _ _ _ _ _ _ => rfl
  project := fun _ _ _ _ _ => rfl
  proximal := fun _ _ _ _ _ _ => rfl
  proximalWithValue := fun _ _ _ _ _ _ => rfl

theorem ExpressionLeaf.writeOnly [Elementary α] (leaf : ExpressionLeaf α) :
    leaf.hooks.WriteOnly leaf.header.nvar leaf.header.ncon where
  gradient := fun _ _ _ _ _ => rfl
  objectiveGradient := fun _ _ _ _ _ => rfl
  constraints := fun _ _ _ _ _ => rfl
  jacobianProduct := fun _ _ _ _ _ _ => rfl
  adjointProduct := fun _ _ _ _ _ _ => rfl
  project := fun _ _ _ _ _ => rfl
  proximal := fun _ _ _ _ _ _ => rfl
  proximalWithValue := fun _ _ _ _ _ _ => rfl

/-! ### Reformulations -/

theorem Slack.length_baseBlock_congr [Scalar α] (base : Oracle α) {first second : List α}
    (same : first.length = second.length) :
    (baseBlock base first).length = (baseBlock base second).length := by
  simp [baseBlock, same]

theorem Slack.length_slackBlock_congr [Scalar α] (base : Oracle α) {first second : List α}
    (same : first.length = second.length) :
    (slackBlock base first).length = (slackBlock base second).length := by
  simp [slackBlock, same]

section Reformulations

variable [Scalar α] {base : Oracle α} (writes : base.WriteOnly)
include writes

/-- The base gets one block of the buffer. The other is cleared, negated or projected into, and of its
content only the length remains. -/
theorem Slack.writeOnly {header : Header α} :
    (Slack.hooks header base).WriteOnly header.nvar header.ncon where
  gradient := by
    intro x first second hfirst hsecond
    have blocks := length_baseBlock_congr base (hfirst.trans hsecond.symm)
    have slackBlocks := length_slackBlock_congr base (hfirst.trans hsecond.symm)
    have cleared : Vec.zeroed (slackBlock base first) = Vec.zeroed (slackBlock base second) := by
      rw [Vec.zeroed_eq_zeros, Vec.zeroed_eq_zeros, slackBlocks]
    simp only [hooks, gradient, (writes.gradient _).vector blocks, cleared]
  objectiveGradient := by
    intro x first second hfirst hsecond
    have blocks := length_baseBlock_congr base (hfirst.trans hsecond.symm)
    have slackBlocks := length_slackBlock_congr base (hfirst.trans hsecond.symm)
    have cleared : Vec.zeroed (slackBlock base first) = Vec.zeroed (slackBlock base second) := by
      rw [Vec.zeroed_eq_zeros, Vec.zeroed_eq_zeros, slackBlocks]
    simp only [hooks, objectiveGradient, (writes.objectiveGradient _).vector blocks, cleared]
  constraints := by
    intro x first second hfirst hsecond
    simp only [hooks, constraints, (writes.constraints _).vector (hfirst.trans hsecond.symm)]
  jacobianProduct := by
    intro x v first second hfirst hsecond
    simp only [hooks, jacobianProduct,
      (writes.jacobianProduct _ _).vector (hfirst.trans hsecond.symm)]
  adjointProduct := by
    intro x v first second hfirst hsecond
    have blocks := length_baseBlock_congr base (hfirst.trans hsecond.symm)
    simp only [hooks, adjointProduct, (writes.adjointProduct _ _).vector blocks]
  project := by
    intro v first second hfirst hsecond
    simp only [hooks, Vec.zeroed_eq_zeros, hfirst, hsecond]
  proximal := by
    intro x step first second hfirst hsecond
    have blocks := length_baseBlock_congr base (hfirst.trans hsecond.symm)
    have slackBlocks := length_slackBlock_congr base (hfirst.trans hsecond.symm)
    simp only [hooks, proximal, (writes.proximal _ _).vector blocks,
      (writes.project _).vector slackBlocks]
  proximalWithValue := by
    intro x step first second hfirst hsecond
    have blocks := length_baseBlock_congr base (hfirst.trans hsecond.symm)
    have slackBlocks := length_slackBlock_congr base (hfirst.trans hsecond.symm)
    simp only [hooks, proximalWithValue, (writes.proximalWithValue _ _).vector blocks,
      (writes.project _).vector slackBlocks]

theorem ProximalPoint.writeOnly {node : ProximalPoint α} :
    (node.hooks base).WriteOnly node.header.nvar node.header.ncon where
  gradient := fun _ _ _ _ _ => rfl
  objectiveGradient := fun _ _ _ _ _ => rfl
  constraints := fun _ _ _ hfirst hsecond =>
    (writes.constraints _).vector (hfirst.trans hsecond.symm)
  jacobianProduct := fun _ _ _ _ hfirst hsecond =>
    (writes.jacobianProduct _ _).vector (hfirst.trans hsecond.symm)
  adjointProduct := fun _ _ _ _ hfirst hsecond =>
    (writes.adjointProduct _ _).vector (hfirst.trans hsecond.symm)
  project := fun _ _ _ hfirst hsecond => (writes.project _).vector (hfirst.trans hsecond.symm)
  proximal := fun _ _ _ _ hfirst hsecond =>
    (writes.proximal _ _).vector (hfirst.trans hsecond.symm)
  proximalWithValue := fun _ _ _ _ hfirst hsecond =>
    (writes.proximalWithValue _ _).vector (hfirst.trans hsecond.symm)

/-- The gradient of the base is written before the correction is added to it. -/
theorem AugmentedLagrangian.writeOnly {node : AugmentedLagrangian α} (ncon : node.header.ncon = 0) :
    (node.hooks base).WriteOnly node.header.nvar node.header.ncon where
  gradient := by
    intro x first second hfirst hsecond
    simp only [hooks, gradient, (writes.gradient _).vector (hfirst.trans hsecond.symm)]
  objectiveGradient := by
    intro x first second hfirst hsecond
    simp only [hooks, objectiveGradient,
      (writes.objectiveGradient _).vector (hfirst.trans hsecond.symm)]
  constraints := fun _ => .of_empty ncon
  jacobianProduct := fun _ _ => .of_empty ncon
  adjointProduct := by
    intro x v first second hfirst hsecond
    simp only [hooks, Unconstrained.adjointProduct, Vec.zeroed_eq_zeros, hfirst, hsecond]
  project := fun _ => .of_empty ncon
  proximal := fun _ _ _ _ hfirst hsecond =>
    (writes.proximal _ _).vector (hfirst.trans hsecond.symm)
  proximalWithValue := fun _ _ _ _ hfirst hsecond =>
    (writes.proximalWithValue _ _).vector (hfirst.trans hsecond.symm)

/-- Where the loss has no direction, the buffer is cleared, otherwise the base fills it. -/
theorem Feasibility.infeasibilityGradient_dependsOnShape (node : Feasibility α) (x : Tensor α) :
    DependsOnShape (node.infeasibilityGradient base x) := by
  intro first second same
  simp only [infeasibilityGradient, Oracle.buffer, Option.getD_some, same]
  apply Eval.checkVectors_bind_congr
  intro checked
  have lengthSecond := Tensor.length_entries_of_shape (shapes_eq_of_check checked).2
  have lengthFirst := Tensor.length_entries_of_shape (same.trans (shapes_eq_of_check checked).2)
  have lengths := lengthFirst.trans lengthSecond.symm
  have cleared : Vec.zeroed first.entries = Vec.zeroed second.entries := by
    rw [Vec.zeroed_eq_zeros, Vec.zeroed_eq_zeros, lengths]
  simp only [cleared, (writes.adjointProduct _ _).vector lengths]

theorem Feasibility.writeOnly {node : Feasibility α} (ncon : node.header.ncon = 0) :
    (node.hooks base).WriteOnly node.header.nvar node.header.ncon := by
  have gradients : ∀ x, Overwrites node.header.nvar (node.gradient base x) := by
    intro x first second hfirst hsecond
    have depends := node.infeasibilityGradient_dependsOnShape writes (.vector x)
    simp only [gradient, depends.vector (hfirst.trans hsecond.symm)]
  exact {
    gradient := gradients
    objectiveGradient := by
      intro x first second hfirst hsecond
      simp only [hooks, Hooks.separateObjectiveGradient, gradients x hfirst hsecond]
    constraints := fun _ => .of_empty ncon
    jacobianProduct := fun _ _ => .of_empty ncon
    adjointProduct := by
      intro x v first second hfirst hsecond
      simp only [hooks, Unconstrained.adjointProduct, Vec.zeroed_eq_zeros, hfirst, hsecond]
    project := fun _ => .of_empty ncon
    proximal := by
      intro x step first second hfirst hsecond
      simp only [hooks, proximal, (writes.proximal _ _).vector (hfirst.trans hsecond.symm)]
    proximalWithValue := by
      intro x step first second hfirst hsecond
      simp only [hooks, proximalWithValue,
        (writes.proximalWithValue _ _).vector (hfirst.trans hsecond.symm)] }

/-- A base with other dimensions refuses the buffers of both calls alike. -/
theorem Tailored.writeOnly {node : Tailored α} :
    (node.hooks base).WriteOnly node.header.nvar node.header.ncon where
  gradient := fun _ _ _ hfirst hsecond => (writes.gradient _).vector (hfirst.trans hsecond.symm)
  objectiveGradient := by
    intro x first second hfirst hsecond
    simp only [hooks, Hooks.separateObjectiveGradient,
      (writes.gradient _).vector (hfirst.trans hsecond.symm)]
  constraints := fun _ _ _ hfirst hsecond =>
    (writes.constraints _).vector (hfirst.trans hsecond.symm)
  jacobianProduct := fun _ _ _ _ hfirst hsecond =>
    (writes.jacobianProduct _ _).vector (hfirst.trans hsecond.symm)
  adjointProduct := fun _ _ _ _ hfirst hsecond =>
    (writes.adjointProduct _ _).vector (hfirst.trans hsecond.symm)
  project := by
    intro v first second hfirst hsecond
    simp only [hooks, project]
    split
    · rfl
    · exact (writes.project _).vector (hfirst.trans hsecond.symm)
    · rfl
  proximal := by
    intro x step first second _ _
    simp only [hooks, proximal]
    split
    · rfl
    · rfl
  proximalWithValue := by
    intro x step first second _ _
    simp only [hooks, proximalWithValue]
    split
    · rfl
    · rfl

end Reformulations

/-- The operations of every model of a family look at nothing but the shape of their buffers. -/
theorem Model.writeOnly [Elementary α] {models : List (Model α)} (family : Family models)
    {model : Model α} (member : model ∈ models) : model.oracle.WriteOnly := by
  induction model with
  | backend leaf => exact Hooks.WriteOnly.oracle leaf.writeOnly rfl
  | expression leaf => exact Hooks.WriteOnly.oracle leaf.writeOnly rfl
  | slack node base ih =>
      exact Hooks.WriteOnly.oracle (Slack.writeOnly (ih (family.bases member rfl))) rfl
  | proximalPoint node base ih =>
      exact Hooks.WriteOnly.oracle (ProximalPoint.writeOnly (ih (family.bases member rfl))) rfl
  | augmentedLagrangian node base ih =>
      rcases family.regular member with ⟨_, ncon, _⟩
      have writes := ih (family.bases member rfl)
      exact Hooks.WriteOnly.oracle (AugmentedLagrangian.writeOnly writes ncon) rfl
  | feasibility node base ih =>
      rcases family.regular member with ⟨_, ncon, _⟩
      have writes := ih (family.bases member rfl)
      exact Hooks.WriteOnly.oracle (Feasibility.writeOnly writes ncon) rfl
  | tailored node base ih =>
      exact Hooks.WriteOnly.oracle (Tailored.writeOnly (ih (family.bases member rfl))) rfl

/-! ### Calls -/

/-- The same call with another buffer, or with none. A call for a scalar has no buffer. -/
def Call.withBuffer (out : Option (Tensor α)) : Call α → Call α
  | .objective x => .objective x
  | .gradient x _ => .gradient x out
  | .objectiveGradient x _ => .objectiveGradient x out
  | .constraints x _ => .constraints x out
  | .objectiveConstraints x _ => .objectiveConstraints x out
  | .jacobianProduct x v _ => .jacobianProduct x v out
  | .adjointProduct x v _ => .adjointProduct x v out
  | .project v _ => .project v out
  | .distance v => .distance v
  | .proximal x step _ => .proximal x step out
  | .proximalWithValue x step _ => .proximalWithValue x step out

@[simp] theorem Call.bufferLength_withBuffer (header : Header α) (call : Call α)
    (out : Option (Tensor α)) :
    (call.withBuffer out).bufferLength header = call.bufferLength header := by
  cases call <;> rfl

/-- The same question with another buffer, or with none. -/
def Feasibility.Question.withBuffer (out : Option (Tensor α)) : Question α → Question α
  | .infeasibilityGradient x _ => .infeasibilityGradient x out
  | question => question

/-- From `store`, a computation that takes a buffer with `n` entries ends in the same way with every
such buffer and with none: with the same answer or failure, and in the same store. A vector that it
gives fills the buffer. -/
structure Eval.IgnoresContent (n : Nat) (program : Option (Tensor α) → Eval α (Answer α))
    (store : Store α) : Prop where
  same : ∀ {first second : Tensor α}, first.shape = [n] → second.shape = [n] →
    (program (some first)).run store = (program (some second)).run store
  omitted : ∀ {out : Tensor α}, out.shape = [n] →
    (program (some out)).run store = (program none).run store
  fills : ∀ {out : Tensor α} {answer : Answer α}, out.shape = [n] →
    (program (some out)).outcome store = .ok answer → answer.Fills n

/-- Where no buffer is given, one with zeros is taken, so it is enough to compare given buffers. -/
theorem Eval.IgnoresContent.of_shape [Scalar α] {n : Nat}
    {program : Option (Tensor α) → Eval α (Answer α)} {store : Store α}
    (depends : DependsOnShape program)
    (default : program none = program (some (.vector (Vec.zeros n))))
    (fills : ∀ {out answer}, (program out).outcome store = .ok answer → answer.Fills n) :
    IgnoresContent n program store where
  same := fun hfirst hsecond => by rw [depends (hfirst.trans hsecond.symm)]
  omitted := by
    intro out shape
    have sameShape : out.shape = (Tensor.vector (Vec.zeros n : List α)).shape := by simp [shape]
    rw [default, depends sameShape]
  fills := fun _ returned => fills returned

theorem Oracle.WriteOnly.call [Scalar α] {oracle : Oracle α} (writes : oracle.WriteOnly)
    (call : Call α) : DependsOnShape fun out => oracle.call (call.withBuffer out) := by
  intro first second same
  cases call with
  | objective x => rfl
  | gradient x out => simp only [Oracle.call, Call.withBuffer, writes.gradient x same]
  | objectiveGradient x out =>
      simp only [Oracle.call, Call.withBuffer, writes.objectiveGradient x same]
  | constraints x out => simp only [Oracle.call, Call.withBuffer, writes.constraints x same]
  | objectiveConstraints x out =>
      simp only [Oracle.call, Call.withBuffer, writes.objectiveConstraints x same]
  | jacobianProduct x v out =>
      simp only [Oracle.call, Call.withBuffer, writes.jacobianProduct x v same]
  | adjointProduct x v out =>
      simp only [Oracle.call, Call.withBuffer, writes.adjointProduct x v same]
  | project v out => simp only [Oracle.call, Call.withBuffer, writes.project v same]
  | distance v => rfl
  | proximal x step out => simp only [Oracle.call, Call.withBuffer, writes.proximal x step same]
  | proximalWithValue x step out =>
      simp only [Oracle.call, Call.withBuffer, writes.proximalWithValue x step same]

theorem Oracle.call_withBuffer_none [Scalar α] (oracle : Oracle α) (call : Call α) :
    oracle.call (call.withBuffer none) =
      oracle.call (call.withBuffer (some (.vector (Vec.zeros (call.bufferLength oracle.header))))) := by
  cases call <;> rfl

theorem Feasibility.ask_dependsOnShape [Scalar α] {base : Oracle α} (writes : base.WriteOnly)
    (node : Feasibility α) (question : Question α) :
    DependsOnShape fun out => node.ask base (question.withBuffer out) := by
  intro first second same
  cases question with
  | infeasibilityGradient x out =>
      change (do return Answer.vector (← node.infeasibilityGradient base x (some first))) = _
      rw [node.infeasibilityGradient_dependsOnShape writes x same]
      rfl
  | _ => rfl

/-- The buffer of a multiplier estimate is checked, and then nothing but its checks is left of it. -/
theorem AugmentedLagrangian.multiplierEstimate_dependsOnShape [Scalar α]
    (node : AugmentedLagrangian α) (base : Oracle α) (x : Tensor α) :
    DependsOnShape (node.multiplierEstimate base x) := by
  intro first second same
  simp only [multiplierEstimate, Oracle.buffer, Option.getD_some, same]

/-- Without constraints, the product with the transposed Jacobian is zero, and nothing is asked for. -/
theorem Oracle.adjointProduct_of_unconstrained [Scalar α] (oracle : Oracle α)
    (unconstrained : oracle.header.ncon = 0) {x v out : Tensor α}
    (hx : x.shape = [oracle.header.nvar]) (hv : v.shape = [0])
    (hout : out.shape = [oracle.header.nvar]) :
    oracle.adjointProduct x v (some out) = pure (Vec.zeros oracle.header.nvar) := by
  have lengthOut := Tensor.length_entries_of_shape hout
  have checked : Eval.checkVectors (α := α) oracle.header.nvar [x.shape, out.shape] = pure () := by
    rw [hx, hout, Eval.checkVectors, checkVectors_self_self]
    rfl
  have checkedV : Eval.checkVectors (α := α) 0 [v.shape] = pure () := by
    rw [hv]
    rfl
  simp [Oracle.adjointProduct, Oracle.buffer, unconstrained, checked, checkedV, Vec.zeroed_eq_zeros,
    lengthOut]

/-! ### Every session -/

section Sessions

variable [Elementary α] {session : Session α}

/-- Whatever happened before, the content of a buffer has no influence on an operation: not on its
answer, not on its failure, and not on the store that it leaves behind. Without constraints, the product
with the transposed Jacobian is zero and the store is left alone.

Only the content varies: the buffer shares no memory with the arguments of the call. -/
theorem Session.Reachable.buffers_are_write_only (reachable : session.Reachable) :
    (∀ model ∈ session.models, ∀ call : Call α,
      Eval.IgnoresContent (call.bufferLength model.header)
        (fun out => model.oracle.call (call.withBuffer out)) session.store) ∧
    (∀ node base, .feasibility node base ∈ session.models → ∀ question : Feasibility.Question α,
      Eval.IgnoresContent node.header.nvar
        (fun out => node.ask base.oracle (question.withBuffer out)) session.store) ∧
    (∀ node base, .augmentedLagrangian node base ∈ session.models → ∀ x : Tensor α,
      Eval.IgnoresContent base.header.ncon
        (fun out => do return .vector (← node.multiplierEstimate base.oracle x out))
        session.store) ∧
    ∀ model ∈ session.models, model.header.ncon = 0 → ∀ x v out : Tensor α,
      x.shape = [model.header.nvar] → v.shape = [0] → out.shape = [model.header.nvar] →
      (model.oracle.adjointProduct x v (some out)).run session.store =
        .ok (Vec.zeros model.header.nvar) session.store := by
  rcases reachable.sound with ⟨family, ready⟩
  refine ⟨?calls, ?questions, ?estimates, ?unconstrained⟩
  case calls =>
    intro model member call
    refine .of_shape ((Model.writeOnly family member).call call) ?_ fun {out answer} returned => ?_
    · simpa using model.oracle.call_withBuffer_none call
    · simpa using (Model.answers_call family member (call.withBuffer out) _ ready).good _ returned
  case questions =>
    intro node base member question
    have writes : base.oracle.WriteOnly := Model.writeOnly family (family.bases member rfl)
    refine .of_shape (Feasibility.ask_dependsOnShape writes node question) ?_
      fun {out answer} returned => ?_
    · cases question <;> rfl
    · exact (Feasibility.answers_ask family member (question.withBuffer out) _ ready).good _ returned
  case estimates =>
    intro node base member x
    refine .of_shape (fun first second same => ?_) ?_ fun {out answer} returned => ?_
    · simp only [node.multiplierEstimate_dependsOnShape base.oracle x same]
    · rw [← Model.oracle_header]
      rfl
    · have packed : Eval.Answers (Store.Ready session.models session.store.penalties) True
          (do return Answer.vector (← node.multiplierEstimate base.oracle x out))
          (Answer.Fills base.header.ncon) _ :=
        answers_pack (AugmentedLagrangian.answers_multiplierEstimate family member x out) id
          fun _ length => length
      exact (packed _ ready).good _ returned
  case unconstrained =>
    intro model member none x v out hx hv hout
    rw [← Model.oracle_header] at none hx hout ⊢
    rw [model.oracle.adjointProduct_of_unconstrained none hx hv hout]
    rfl

/-- With a buffer full of other numbers, the gradient of the slack reformulation of the ball problem is
what it is with any other buffer. -/
theorem Session.buffers_are_write_only_ball :
    balled.Reachable ∧
      (((Model.slack ballSlack ball).oracle.call
          (.gradient (.vector [2, 3, 4]) (some (.vector [7, 8, 9])))).run balled.store =
        ((Model.slack ballSlack ball).oracle.call
          (.gradient (.vector [2, 3, 4]) (some (.vector [0, 5, 0])))).run balled.store) ∧
      ((Model.slack ballSlack ball).oracle.call
          (.gradient (.vector [2, 3, 4]) (some (.vector [7, 8, 9])))).outcome balled.store =
        .ok (.vector [1, 0, 0]) := by
  have ignores := reachable_balled.buffers_are_write_only.1 _ ballSlack_mem_balled
    (.gradient (.vector [2, 3, 4]) none)
  refine ⟨reachable_balled, ignores.same rfl rfl, ?_⟩
  rw [reachable_balled.sound.outcome_call ballSlack_mem_balled (Model.repeatable _)]
  change Except.ok (Answer.vector [(0 : ℝ) + 1, 0, 0]) = _
  norm_num

end Sessions

end CompositeModels
