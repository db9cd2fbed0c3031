/-
Module: CompositeModels.Proofs.Indicator
Purpose: Whether the value zero that stacks over a backend report for their term is its true value. The
  term is the indicator of a box, which slack reformulations extend by the box of the constraint values
  of their base, and proximal points are clamped onto it. They are in the box exactly if its bounds carry
  numbers and are in order, which is not checked when a model is built.
Main exports: Interval.Admits, Interval.Coherent, Box.admits_clamp, Model.valueBox, Model.indicatorBox,
  Model.KeepsIndicator, Session.Reachable.proximal_points_are_admitted
-/
import CompositeModels.Proofs.Order
import CompositeModels.Proofs.Projection

namespace CompositeModels

variable {α : Type}

/-! ### Boxes -/

namespace Interval

variable [Scalar α] {interval : Interval α} {a v : α}

/-- A value is not beyond the bounds that are there. Nothing is on the right side of an undefined
bound. -/
structure Admits (interval : Interval α) (a : α) : Prop where
  lower : ∀ l, interval.lower = some l → l ≤ a
  upper : ∀ u, interval.upper = some u → a ≤ u

/-- The bounds that are there carry numbers, and the lower one is not above the upper one. -/
structure Coherent (interval : Interval α) : Prop where
  lower : ∀ l, interval.lower = some l → Scalar.isUndefined l = false
  upper : ∀ u, interval.upper = some u → Scalar.isUndefined u = false
  ordered : ∀ l u, interval.lower = some l → interval.upper = some u → l ≤ u

variable [Scalar.LawfulOrder α]

/-- Only an interval with coherent bounds admits anything. -/
theorem Admits.coherent (admits : interval.Admits a) : interval.Coherent where
  lower l same := Scalar.LawfulOrder.defined_left (admits.lower l same)
  upper u same := Scalar.LawfulOrder.defined_right (admits.upper u same)
  ordered l u lower upper := Scalar.LawfulOrder.le_trans (admits.lower l lower) (admits.upper u upper)

/-- A value that is raised to a lower bound is not below it, and carries a number. -/
theorem Coherent.raised (coherent : interval.Coherent) (defined : Scalar.isUndefined v = false) :
    Scalar.isUndefined (clamp.raised interval v) = false ∧
      ∀ l, interval.lower = some l → l ≤ clamp.raised interval v := by
  cases given : interval.lower with
  | none =>
      simp only [clamp.raised, given]
      exact ⟨defined, fun _ same => by cases same⟩
  | some l =>
      have le : l ≤ Scalar.largerOf v l := Scalar.le_largerOf defined (coherent.lower l given)
      simp only [clamp.raised, given]
      refine ⟨Scalar.LawfulOrder.defined_right le, fun _ same => ?_⟩
      cases same
      exact le

theorem admits_clamp (coherent : interval.Coherent) (defined : Scalar.isUndefined v = false) :
    interval.Admits (interval.clamp v) := by
  obtain ⟨definedRaised, le⟩ := coherent.raised defined
  cases given : interval.upper with
  | none =>
      simp only [clamp, clamp.capped, given]
      exact ⟨le, fun _ same => by rw [given] at same; cases same⟩
  | some u =>
      simp only [clamp, clamp.capped, given]
      constructor
      · intro l same
        exact Scalar.le_smallerOf (le l same) (coherent.ordered l u same given)
      · intro other same
        cases given.symm.trans same
        exact Scalar.smallerOf_le definedRaised (coherent.upper u given)

end Interval

namespace Box

variable [Scalar α] {box : Box α} {z v : List α}

/-- Each entry is admitted by its interval. -/
def Admits (box : Box α) (z : List α) : Prop := List.Forall₂ Interval.Admits box z

/-- The bounds of each interval are coherent. -/
def Coherent (box : Box α) : Prop := ∀ interval ∈ box, interval.Coherent

theorem coherent_append {first second : Box α} :
    Coherent (first ++ second) ↔ first.Coherent ∧ second.Coherent :=
  List.forall_mem_append

theorem admits_replicate {interval : Interval α} {a : α} (admits : interval.Admits a) (n : ℕ) :
    Admits (List.replicate n interval) (List.replicate n a) := by
  induction n with
  | zero => exact .nil
  | succ n ih => exact .cons admits ih

variable [Scalar.LawfulOrder α]

theorem Admits.coherent (admits : box.Admits z) : box.Coherent := by
  induction admits with
  | nil =>
      intro interval member
      cases member
  | cons first rest ih => exact List.forall_mem_cons.2 ⟨first.coherent, ih⟩

theorem admits_clamp (coherent : box.Coherent) (length : box.length = v.length)
    (defined : ∀ a ∈ v, Scalar.isUndefined a = false) : box.Admits (box.clamp v) := by
  induction box generalizing v with
  | nil => exact .nil
  | cons interval rest ih =>
      obtain ⟨first, coherent⟩ := List.forall_mem_cons.1 coherent
      cases v with
      | nil => contradiction
      | cons a others =>
          obtain ⟨definedFirst, defined⟩ := List.forall_mem_cons.1 defined
          exact .cons (Interval.admits_clamp first definedFirst)
            (ih coherent (Nat.succ.inj length) defined)

/-- In exact arithmetic every bound carries a number. -/
theorem coherent_of_ordered {box : Box ℝ} (ordered : box.Ordered) : box.Coherent := by
  intro interval member
  exact ⟨fun _ _ => Scalar.isUndefined_real _, fun _ _ => Scalar.isUndefined_real _,
    ordered interval member⟩

end Box

/-! ### Stacks over a backend -/

namespace Model

variable [Scalar α]

/-- The box that a stack over a backend projects constraint values onto. -/
def valueBox : Model α → Box α
  | .backend leaf => leaf.constraintBox
  | .slack node _ => List.replicate node.header.ncon ⟨some 0, some 0⟩
  | .proximalPoint _ base => base.valueBox
  | .augmentedLagrangian .. | .feasibility .. | .expression _ | .tailored .. => []

/-- The box whose indicator is the term of a stack over a backend: that of the variable bounds, and the
boxes of the constraint values of all models that are given slacks. -/
def indicatorBox : Model α → Box α
  | .backend leaf => leaf.variableBox
  | .slack _ base => base.indicatorBox ++ base.valueBox
  | .proximalPoint _ base | .augmentedLagrangian _ base | .feasibility _ base => base.indicatorBox
  | .expression _ | .tailored .. => []

/-- The stack is built over a backend, without tailored layers, and no layer drops the term. -/
def KeepsIndicator : Model α → Prop
  | .backend _ => True
  | .slack _ base | .proximalPoint _ base | .augmentedLagrangian _ base => base.KeepsIndicator
  | .feasibility node base => node.withIndicator = true ∧ base.KeepsIndicator
  | .expression _ | .tailored .. => False

end Model

variable [Elementary α] {session : Session α} {model : Model α}

/-- At defined points and for positive steps the model returns proximal points, and the same points with
the value zero if it is asked for both. They are admitted by the box if its bounds are coherent. -/
def Model.ReturnsAdmitted (model : Model α) (store : Store α) (box : Box α) : Prop :=
  ∀ ⦃x : List α⦄ ⦃step : α⦄, x.length = model.header.nvar →
    (∀ a ∈ x, Scalar.isUndefined a = false) → 0 < step →
    ∃ z, (model.oracle.proximal (.vector x) step none).outcome store = .ok z ∧
      (model.oracle.proximalWithValue (.vector x) step none).outcome store = .ok (0, z) ∧
      (box.Coherent → box.Admits z)

theorem Model.ReturnsAdmitted.of_base (sound : session.Sound) {base : Model α} {box : Box α}
    (member : model ∈ session.models) (baseMember : base ∈ session.models)
    (handsOn : model.termMeaning.HandsOn base.termMeaning)
    (returns : base.ReturnsAdmitted session.store box) : model.ReturnsAdmitted session.store box := by
  have nvar : model.header.nvar = base.header.nvar := by simpa using handsOn.nvar
  intro x step length defined positive
  rw [sound.outcome_proximal_of_handsOn member baseMember handsOn length positive,
    sound.outcome_proximalWithValue_of_handsOn member baseMember handsOn length positive]
  exact returns (length.trans nvar) defined positive

variable [Scalar.LawfulOrder α]

/-- Projections of stacks over a backend are admitted if the bounds are coherent. -/
theorem Session.Sound.exists_admitted_projection (sound : session.Sound)
    (member : model ∈ session.models) (keeps : model.KeepsIndicator) {v : List α}
    (length : v.length = model.header.ncon) (defined : ∀ a ∈ v, Scalar.isUndefined a = false) :
    ∃ p, (model.oracle.project (.vector v) none).outcome session.store = .ok p ∧
      (model.valueBox.Coherent → model.valueBox.Admits p) := by
  induction model with
  | backend leaf =>
      obtain ⟨_, _, lengthBox⟩ := sound.family.regular member
      refine ⟨leaf.constraintBox.clamp v, ?_, fun coherent =>
        Box.admits_clamp coherent (lengthBox.trans length.symm) defined⟩
      rcases Nat.eq_zero_or_pos leaf.header.ncon with unconstrained | constrained
      · have empty : v = [] := List.eq_nil_of_length_eq_zero (length.trans unconstrained)
        rw [sound.outcome_project_unconstrained member unconstrained length, empty]
        simp [Box.clamp]
      · exact sound.outcome_project_constrained member constrained length
  | expression leaf => exact keeps.elim
  | slack node base ih =>
      have zero : (Interval.mk (some (0 : α)) (some 0)).Admits 0 := by
        have le : (0 : α) ≤ 0 := Scalar.le_self Scalar.LawfulOrder.defined_zero
        constructor <;> intro bound same <;> cases same <;> exact le
      refine ⟨Vec.zeros node.header.ncon, ?_, fun _ => Box.admits_replicate zero _⟩
      rcases Nat.eq_zero_or_pos node.header.ncon with unconstrained | constrained
      · rw [sound.outcome_project_unconstrained member unconstrained length, unconstrained]
        rfl
      · rw [sound.outcome_project_constrained member constrained length]
        change Except.ok (Vec.zeroed v) = _
        rw [Vec.zeroed_eq_zeros, length]
        rfl
  | proximalPoint node base ih =>
      have baseMember : base ∈ session.models := sound.family.bases member rfl
      obtain ⟨_, ncon, _⟩ := sound.family.regular member
      have lengthBase : v.length = base.header.ncon := length.trans ncon
      obtain ⟨p, projected, admits⟩ := ih baseMember keeps lengthBase
      exact ⟨p, (sound.outcome_project_proximalPoint member lengthBase).trans projected, admits⟩
  | augmentedLagrangian node base ih =>
      obtain ⟨_, ncon, _⟩ := sound.family.regular member
      exact ⟨[], sound.outcome_project_unconstrained member ncon length, fun _ => .nil⟩
  | feasibility node base ih =>
      obtain ⟨_, ncon, _⟩ := sound.family.regular member
      exact ⟨[], sound.outcome_project_unconstrained member ncon length, fun _ => .nil⟩
  | tailored node base ih => exact keeps.elim

/-- The slacks are projected, so that the box of the constraint values of the base admits them. -/
theorem Model.ReturnsAdmitted.slack (sound : session.Sound) {wrapper : Wrapper α} {base : Model α}
    (member : .slack wrapper base ∈ session.models) (keeps : base.KeepsIndicator)
    (returns : base.ReturnsAdmitted session.store base.indicatorBox) :
    (Model.slack wrapper base).ReturnsAdmitted session.store (base.indicatorBox ++ base.valueBox) := by
  intro point step length defined positive
  have baseMember : base ∈ session.models := sound.family.bases member rfl
  obtain ⟨nvar, _⟩ := sound.family.regular member
  obtain ⟨x, s, rfl, lengthX, lengthS⟩ := Vec.exists_append (length.trans nvar)
  obtain ⟨definedX, definedS⟩ := List.forall_mem_append.1 defined
  obtain ⟨z, returned, returnedWithValue, admits⟩ := returns lengthX definedX positive
  obtain ⟨p, projected, admitsSlacks⟩ :=
    sound.exists_admitted_projection baseMember keeps lengthS definedS
  refine ⟨z ++ p, ?_, ?_, fun coherent => ?_⟩
  · rw [sound.outcome_proximal_slack member lengthX lengthS positive, returned, projected]
    rfl
  · rw [sound.outcome_proximalWithValue_slack member lengthX lengthS positive, returnedWithValue,
      projected]
    rfl
  · obtain ⟨first, second⟩ := Box.coherent_append.1 coherent
    exact List.rel_append (admits first) (admitsSlacks second)

theorem Session.Sound.returnsAdmitted (sound : session.Sound) (member : model ∈ session.models)
    (keeps : model.KeepsIndicator) : model.ReturnsAdmitted session.store model.indicatorBox := by
  induction model with
  | backend leaf =>
      obtain ⟨_, lengthBox, _⟩ := sound.family.regular member
      intro x step length defined positive
      refine ⟨leaf.variableBox.clamp x, ?_, ?_, fun coherent =>
        Box.admits_clamp coherent (lengthBox.trans length.symm) defined⟩
      · rw [sound.outcome_proximal member, TermMeaning.proximalAt_vector positive length]
        rfl
      · rw [sound.outcome_proximalWithValue member,
          TermMeaning.proximalWithValueAt_vector positive length]
        rfl
  | expression leaf => exact keeps.elim
  | slack node base ih =>
      exact .slack sound member keeps (ih (sound.family.bases member rfl) keeps)
  | proximalPoint node base ih =>
      have baseMember := sound.family.bases member rfl
      obtain ⟨nvar, _⟩ := sound.family.regular member
      exact .of_base sound member baseMember (Model.handsOn_proximalPoint nvar) (ih baseMember keeps)
  | augmentedLagrangian node base ih =>
      have baseMember := sound.family.bases member rfl
      obtain ⟨nvar, _⟩ := sound.family.regular member
      exact .of_base sound member baseMember (Model.handsOn_augmentedLagrangian nvar)
        (ih baseMember keeps)
  | feasibility node base ih =>
      have baseMember := sound.family.bases member rfl
      obtain ⟨nvar, _⟩ := sound.family.regular member
      obtain ⟨kept, keeps⟩ := keeps
      exact .of_base sound member baseMember (Model.handsOn_feasibility nvar kept)
        (ih baseMember keeps)
  | tailored node base ih => exact keeps.elim

/-- In every session, a stack over a backend that keeps the term returns a proximal point for each point
that carries numbers and each positive step, and reports the value zero for it. The point is in the box
whose indicator is the term, so that zero is its value, exactly if the bounds of the box carry numbers
and are in order. -/
theorem Session.Reachable.proximal_points_are_admitted (reachable : session.Reachable)
    (member : model ∈ session.models) (keeps : model.KeepsIndicator) {x : List α}
    (length : x.length = model.header.nvar) (defined : ∀ a ∈ x, Scalar.isUndefined a = false)
    {step : α} (positive : 0 < step) :
    ∃ z, (model.oracle.proximal (.vector x) step none).outcome session.store = .ok z ∧
      (model.oracle.proximalWithValue (.vector x) step none).outcome session.store = .ok (0, z) ∧
      (model.indicatorBox.Admits z ↔ model.indicatorBox.Coherent) := by
  obtain ⟨z, returned, returnedWithValue, admits⟩ :=
    reachable.sound.returnsAdmitted member keeps length defined positive
  exact ⟨z, returned, returnedWithValue, Box.Admits.coherent, admits⟩

/-! ### The box problem -/

namespace Session

/-- The variable is free, and the slacks `(2, -1)` are clamped onto `c_1 <= 1` and `0 <= c_2 <= 1`. -/
theorem proximal_points_are_admitted_box :
    boxed.Reachable ∧
      ((Model.slack boxSlack (.backend boxLeaf)).oracle.proximalWithValue (.vector [5, 2, -1]) 1
        none).outcome boxed.store = .ok (0, [5, 1, 0]) ∧
      (Model.slack boxSlack (.backend boxLeaf)).indicatorBox.Admits [5, 1, 0] := by
  have free : boxLeaf.variableBox.Ordered := by
    intro interval member l u lower upper
    rw [List.mem_singleton.1 member] at lower
    cases lower
  have coherent : (Model.slack boxSlack (.backend boxLeaf)).indicatorBox.Coherent :=
    Box.coherent_append.2
      ⟨Box.coherent_of_ordered free, Box.coherent_of_ordered ordered_boxLeaf⟩
  obtain ⟨z, returned, returnedWithValue, admits⟩ :=
    reachable_boxed.proximal_points_are_admitted boxSlack_mem_boxed trivial (x := [5, 2, -1]) rfl
      (fun _ _ => Scalar.isUndefined_real _) one_pos
  have first : ((Model.backend boxLeaf).oracle.proximal (.vector [5]) 1 none).outcome boxed.store =
      .ok [5] := by
    rw [reachable_boxed.sound.outcome_proximal boxLeaf_mem_boxed,
      TermMeaning.proximalAt_vector one_pos rfl]
    rfl
  have blocks : ([5, 2, -1] : List ℝ) = [5] ++ [2, -1] := rfl
  rw [blocks, reachable_boxed.sound.outcome_proximal_slack boxSlack_mem_boxed rfl rfl one_pos, first,
    outcome_project_box] at returned
  cases returned
  exact ⟨reachable_boxed, returnedWithValue, admits.2 coherent⟩

/-! ### A backend with crossed bounds -/

/-- One variable with `1 <= x <= 0`, in binary64 numbers. -/
def crossedBackend : Backend Float where
  name := "crossed"
  nvar := 1
  ncon := 0
  x0 := .vector [0]
  y0 := .vector []
  minimize := true
  lower := .vector [some 1]
  upper := .vector [some 0]
  lowerCon := .vector []
  upperCon := .vector []
  closable := false
  objective x := .ok (Vec.total x)
  gradient _ := .ok [1]
  constraints _ := .ok []
  jacobianProduct _ _ := .ok []
  adjointProduct x _ := .ok (Vec.zeroed x)

/-- The model of the backend, as `crossed` has it. -/
def crossedLeaf : BackendLeaf Float where
  serial := 1
  header := ⟨1, 0, [0], [], true, "crossed"⟩
  backendSerial := 0
  backend := crossedBackend
  variableBox := [⟨some 1, some 0⟩]
  constraintBox := []
  ownsBackend := true

/-- The session in which the backend was handed in and its model was built. -/
def crossed : Session Float :=
  ({} : Session Float).run
    [.provide crossedBackend, .build (.ofBackend 0 crossedBackend (some "crossed") true)]

theorem crossedLeaf_mem_crossed : .backend crossedLeaf ∈ crossed.models := .head _

theorem reachable_crossed : crossed.Reachable := by
  have fills : crossedBackend.FillsBuffers 1 0 := by
    constructor
    · intro x g _ returned
      cases returned
      rfl
    · intro x c _ returned
      cases returned
      rfl
    · intro x v p _ _ returned
      cases returned
      rfl
    · intro x w p length _ returned
      cases returned
      exact (Vec.length_zeroed x).trans length
  refine Reachable.run .start ⟨trivial, ⟨fills, ?_, .head _⟩, trivial⟩
  intro base same
  cases same

/-- The value zero is reported, but the box admits no point at all. -/
theorem not_admitted_crossed :
    crossed.Reachable ∧ .backend crossedLeaf ∈ crossed.models ∧
      Scalar.isUndefined (5 : Float) = false ∧
      ((Model.backend crossedLeaf).oracle.proximalWithValue (.vector [5]) 1 none).outcome
        crossed.store = .ok (0, [0]) ∧
      ∀ z, ¬ (Model.backend crossedLeaf).indicatorBox.Admits z := by
  have zero : (Zero.zero : Float) = 0 := by decide +kernel
  have positive : (0 : Float) < 1 := by decide +kernel
  have clamped : Interval.clamp ⟨some 1, some 0⟩ (5 : Float) = 0 := by decide +kernel
  have crosses : ¬ (1 : Float) ≤ 0 := by decide +kernel
  refine ⟨reachable_crossed, crossedLeaf_mem_crossed, by decide +kernel, ?_, fun z admits => ?_⟩
  · rw [reachable_crossed.sound.outcome_proximalWithValue crossedLeaf_mem_crossed,
      TermMeaning.proximalWithValueAt_vector positive rfl]
    change Except.ok (Zero.zero, [Interval.clamp ⟨some 1, some 0⟩ (5 : Float)]) = _
    rw [clamped, zero]
  · have coherent : (Interval.mk (some (1 : Float)) (some 0)).Coherent :=
      Box.Admits.coherent admits _ (.head _)
    exact crosses (coherent.ordered 1 0 rfl rfl)

end Session

end CompositeModels
