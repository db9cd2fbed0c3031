/-
Module: CompositeModels.Proofs.ProximalTower
Purpose: Proximal-point subproblems on top of each other. The objective of such a tower is the scaled
  squared distance from the outermost anchor, for which no base is evaluated. Everything else is the same
  computation as for the base at the bottom: what a layer adds to it are checks that the base makes as
  well. So a feasibility problem cannot tell the tower from the base.
Main exports: ProximalPoint.sameBesideObjective, Model.tower, Model.distance_hooks,
  Model.sameBesideObjective_tower, Oracle.AnchoredAt, Model.anchoredAt_tower,
  ProximalPoint.valueAt_expand, Session.Reachable.objective_of_tower, Session.exists_tower,
  Session.towers_replace_smooth_part
-/
import CompositeModels.Proofs.BesideObjective
import CompositeModels.Proofs.Buffers
import CompositeModels.Proofs.CacheTransparency
import CompositeModels.Proofs.EvenSquares

namespace CompositeModels

variable {α : Type}

/-! ### Checks that are made twice -/

theorem Eval.checkVectors_self_bind {β : Type} (n : Nat) (next : Unit → Eval α β) :
    (Eval.checkVectors n [[n]] >>= next) = next () := by
  rw [Eval.checkVectors, checkVectors_self]
  rfl

theorem Eval.checkVectors_self_self_bind {β : Type} (n : Nat) (next : Unit → Eval α β) :
    (Eval.checkVectors n [[n], [n]] >>= next) = next () := by
  rw [Eval.checkVectors, checkVectors_self_self]
  rfl

/-- The entries of a vector that was checked pass the check once more. -/
theorem Eval.checkVectors_entries_bind {β : Type} {n : Nat} {x : Tensor α}
    (checked : CompositeModels.checkVectors (α := α) n [x.shape] = .ok ())
    (next : Unit → Eval α β) : (Eval.checkVectors n [[x.entries.length]] >>= next) = next () := by
  rw [Tensor.length_entries_of_shape (shape_eq_of_check checked), checkVectors_self_bind]

theorem Eval.checkVectors_entries_entries_bind {β : Type} {n : Nat} {x y : Tensor α}
    (checked : CompositeModels.checkVectors (α := α) n [x.shape, y.shape] = .ok ())
    (next : Unit → Eval α β) :
    (Eval.checkVectors n [[x.entries.length], [y.entries.length]] >>= next) = next () := by
  obtain ⟨shapeX, shapeY⟩ := shapes_eq_of_check checked
  rw [Tensor.length_entries_of_shape shapeX, Tensor.length_entries_of_shape shapeY,
    checkVectors_self_self_bind]

section Scalars

variable [Scalar α]

/-- Computations that agree for positive steps agree after the check of the step. -/
theorem Oracle.requirePositiveStep_bind_congr {β : Type} {step : α} {first second : Unit → Eval α β}
    (same : 0 < step → first () = second ()) :
    (requirePositiveStep step >>= first) = (requirePositiveStep step >>= second) := by
  unfold requirePositiveStep
  split
  · next positive => exact same positive
  · rfl

theorem Oracle.requirePositiveStep_bind {β : Type} {step : α} (positive : 0 < step)
    (next : Unit → Eval α β) : (requirePositiveStep step >>= next) = next () := by
  rw [requirePositiveStep, if_pos positive]
  rfl

/-! ### One layer -/

namespace ProximalPoint

section Layer

variable {node : ProximalPoint α} {base : Oracle α}

section

variable (nvar : node.header.nvar = base.header.nvar) (ncon : node.header.ncon = base.header.ncon)
include nvar ncon

theorem constraints_eq (x : Tensor α) (out : Option (Tensor α)) :
    (node.oracle base).constraints x out = base.constraints x out := by
  simp only [Oracle.constraints, oracle, hooks, nvar, ncon, Oracle.buffer, Option.getD_some,
    Tensor.shape_vector, Tensor.entries_vector]
  apply Eval.checkVectors_bind_congr
  intro checkedX
  apply Eval.checkVectors_bind_congr
  intro checkedOut
  rw [Eval.checkVectors_entries_bind checkedX, Eval.checkVectors_entries_bind checkedOut]
  split
  · rfl
  · rfl

theorem jacobianProduct_eq (x v : Tensor α) (out : Option (Tensor α)) :
    (node.oracle base).jacobianProduct x v out = base.jacobianProduct x v out := by
  simp only [Oracle.jacobianProduct, oracle, hooks, nvar, ncon, Oracle.buffer, Option.getD_some,
    Tensor.shape_vector, Tensor.entries_vector]
  apply Eval.checkVectors_bind_congr
  intro checkedX
  apply Eval.checkVectors_bind_congr
  intro checkedOut
  rw [Eval.checkVectors_entries_entries_bind checkedX, Eval.checkVectors_entries_bind checkedOut]
  split
  · rfl
  · rfl

theorem adjointProduct_eq (x v : Tensor α) (out : Option (Tensor α)) :
    (node.oracle base).adjointProduct x v out = base.adjointProduct x v out := by
  simp only [Oracle.adjointProduct, oracle, hooks, nvar, ncon, Oracle.buffer, Option.getD_some,
    Tensor.shape_vector, Tensor.entries_vector]
  apply Eval.checkVectors_bind_congr
  intro checkedX
  apply Eval.checkVectors_bind_congr
  intro checkedV
  rw [Eval.checkVectors_entries_entries_bind checkedX, Eval.checkVectors_entries_bind checkedV]
  split
  · rfl
  · rfl

end

section

variable (ncon : node.header.ncon = base.header.ncon)
include ncon

theorem project_eq (v : Tensor α) (out : Option (Tensor α)) :
    (node.oracle base).project v out = base.project v out := by
  simp only [Oracle.project, oracle, hooks, ncon, Oracle.buffer, Option.getD_some,
    Tensor.shape_vector, Tensor.entries_vector]
  apply Eval.checkVectors_bind_congr
  intro checked
  rw [Eval.checkVectors_entries_entries_bind checked]
  split
  · rfl
  · rfl

/-- The layer measures the distance to the projection, whether or not its base does so. -/
theorem distance_eq
    (toProjection : ∀ v, base.hooks.distance v =
      Hooks.distanceToProjection base.hooks.project v) (v : Tensor α) :
    (node.oracle base).distance v = base.distance v := by
  simp only [Oracle.distance, oracle, hooks, ncon, toProjection, Hooks.distanceToProjection,
    Oracle.project, Oracle.buffer, Option.getD_some, Tensor.shape_vector, Tensor.entries_vector,
    Vec.length_zeroed]
  apply Eval.checkVectors_bind_congr
  intro checked
  rw [Tensor.length_entries_of_shape (shape_eq_of_check checked)]
  split
  · next constrained => rw [Eval.checkVectors_self_self_bind]
  · rfl

end

section

variable (nvar : node.header.nvar = base.header.nvar)
include nvar

theorem proximal_eq (x : Tensor α) (step : α) (out : Option (Tensor α)) :
    (node.oracle base).proximal x step out = base.proximal x step out := by
  simp only [Oracle.proximal, oracle, hooks, nvar, Oracle.buffer, Option.getD_some,
    Tensor.shape_vector, Tensor.entries_vector]
  apply Eval.checkVectors_bind_congr
  intro checked
  apply Oracle.requirePositiveStep_bind_congr
  intro positive
  rw [Eval.checkVectors_entries_entries_bind checked, Oracle.requirePositiveStep_bind positive]

theorem proximalWithValue_eq (x : Tensor α) (step : α) (out : Option (Tensor α)) :
    (node.oracle base).proximalWithValue x step out = base.proximalWithValue x step out := by
  simp only [Oracle.proximalWithValue, oracle, hooks, nvar, Oracle.buffer, Option.getD_some,
    Tensor.shape_vector, Tensor.entries_vector]
  apply Eval.checkVectors_bind_congr
  intro checked
  apply Oracle.requirePositiveStep_bind_congr
  intro positive
  rw [Eval.checkVectors_entries_entries_bind checked, Oracle.requirePositiveStep_bind positive]

end

/-- What a layer adds in front of its base are checks that the base makes as well. -/
theorem sameBesideObjective (nvar : node.header.nvar = base.header.nvar)
    (ncon : node.header.ncon = base.header.ncon)
    (toProjection : ∀ v, base.hooks.distance v =
      Hooks.distanceToProjection base.hooks.project v) :
    (node.oracle base).SameBesideObjective base where
  nvar := nvar
  ncon := ncon
  constraints := constraints_eq nvar ncon
  jacobianProduct := jacobianProduct_eq nvar ncon
  adjointProduct := adjointProduct_eq nvar ncon
  project := project_eq ncon
  distance := distance_eq ncon toProjection
  proximal := proximal_eq nvar
  proximalWithValue := proximalWithValue_eq nvar

end Layer

end ProximalPoint

/-! ### The objective of a layer -/

/-- The squared distance from the anchor over twice the step. -/
def ProximalPoint.valueAt (step : α) (anchor x : List α) : α :=
  Scalar.half / step * Vec.dot (Vec.sub x anchor) (Vec.sub x anchor)

/-- The gradient of `valueAt`. -/
def ProximalPoint.slopeAt (step : α) (anchor x : List α) : List α :=
  Vec.divide (Vec.sub x anchor) step

open ProximalPoint (valueAt slopeAt)

/-- The smooth part comes out of a step, an anchor and the point, without an evaluation of the base. -/
structure Oracle.AnchoredAt (oracle base : Oracle α) (step : α) (anchor : List α) : Prop where
  objective : ∀ x, oracle.objective x = do
    Eval.checkVectors base.header.nvar [x.shape]
    return valueAt step anchor x.entries
  gradient : ∀ x out, oracle.gradient x out = do
    Eval.checkVectors base.header.nvar [x.shape, (buffer base.header.nvar out).shape]
    return slopeAt step anchor x.entries
  objectiveGradient : ∀ x out, oracle.objectiveGradient x out = do
    Eval.checkVectors base.header.nvar [x.shape, (buffer base.header.nvar out).shape]
    return (valueAt step anchor x.entries, slopeAt step anchor x.entries)
  objectiveConstraints : ∀ x out, oracle.objectiveConstraints x out = do
    let content ← base.constraints x out
    return (valueAt step anchor x.entries, content)

theorem ProximalPoint.anchoredAt {node : ProximalPoint α} {lower base : Oracle α}
    (nvar : node.header.nvar = lower.header.nvar) (ncon : node.header.ncon = lower.header.ncon)
    (same : lower.SameBesideObjective base) :
    (node.oracle lower).AnchoredAt base node.step node.anchor where
  objective := by
    intro x
    rw [← same.nvar, ← nvar]
    rfl
  gradient := by
    intro x out
    rw [← same.nvar, ← nvar]
    rfl
  objectiveGradient := by
    intro x out
    rw [← same.nvar, ← nvar]
    rfl
  objectiveConstraints := by
    intro x out
    rw [← same.constraints]
    simp only [Oracle.objectiveConstraints, Oracle.constraints, oracle, hooks,
      Hooks.separateObjectiveConstraints, nvar, ncon, Oracle.buffer, Option.getD_some,
      Tensor.shape_vector, Tensor.entries_vector, bind_assoc, pure_bind]
    apply Eval.checkVectors_bind_congr
    intro checkedX
    apply Eval.checkVectors_bind_congr
    intro checkedOut
    rw [Eval.checkVectors_entries_bind checkedX, Eval.checkVectors_entries_bind checkedOut]
    split
    · rfl
    · rfl

end Scalars

/-! ### Towers -/

namespace Model

/-- Proximal-point subproblems on top of each other, the outermost first, over a base. -/
def tower (layers : List (ProximalPoint α)) (base : Model α) : Model α :=
  layers.foldr .proximalPoint base

variable [Elementary α]

/-- Every model measures the distance to the projection. The slack reformulation does so without
projecting, since its set is the zero vector. -/
theorem distance_hooks [Scalar.EvenSquares α] (model : Model α) (v : List α) :
    model.oracle.hooks.distance v =
      Hooks.distanceToProjection model.oracle.hooks.project v := by
  cases model with
  | slack node base =>
      have zeroedTwice : Vec.zeroed (Vec.zeroed v) = Vec.zeroed v := by
        rw [Vec.zeroed_eq_zeros, Vec.zeroed_eq_zeros, Vec.length_zeros]
      show pure (Vec.norm v) = pure (Vec.norm (Vec.sub (Vec.zeroed (Vec.zeroed v)) v))
      rw [zeroedTwice, Vec.norm_zeroed_sub]
  | _ => rfl

variable {models : List (Model α)} {base : Model α}

theorem mem_of_tower_mem (family : Family models) {layers : List (ProximalPoint α)}
    (member : tower layers base ∈ models) : base ∈ models := by
  induction layers with
  | nil => exact member
  | cons node lower ih => exact ih (family.bases member rfl)

/-- Each layer hands on what the one below it answers. -/
theorem sameBesideObjective_tower [Scalar.EvenSquares α] (family : Family models)
    {layers : List (ProximalPoint α)} (member : tower layers base ∈ models) :
    (tower layers base).oracle.SameBesideObjective base.oracle := by
  induction layers with
  | nil => exact .refl base.oracle
  | cons node lower ih =>
      obtain ⟨nvar, ncon, _⟩ := family.regular member
      rw [← oracle_header] at nvar ncon
      have layer : (node.oracle (tower lower base).oracle).SameBesideObjective
          (tower lower base).oracle :=
        ProximalPoint.sameBesideObjective nvar ncon (tower lower base).distance_hooks
      exact layer.trans (ih (family.bases member rfl))

theorem anchoredAt_tower [Scalar.EvenSquares α] (family : Family models)
    {outermost : ProximalPoint α} {lower : List (ProximalPoint α)}
    (member : tower (outermost :: lower) base ∈ models) :
    (tower (outermost :: lower) base).oracle.AnchoredAt base.oracle outermost.step
      outermost.anchor := by
  obtain ⟨nvar, ncon, _⟩ := family.regular member
  rw [← oracle_header] at nvar ncon
  exact ProximalPoint.anchoredAt nvar ncon
    (sameBesideObjective_tower family (family.bases member rfl))

end Model

/-! ### Exact scalars -/

namespace ProximalPoint

variable {step : ℝ} {anchor x x' : List ℝ} {n : ℕ}

/-- The value is a quadratic with the gradient that is computed. -/
theorem valueAt_expand (hanchor : anchor.length = n) (hx : x.length = n) (hx' : x'.length = n) :
    valueAt step anchor x' = valueAt step anchor x +
      Vec.dot (slopeAt step anchor x) (Vec.sub x' x) + Vec.norm (Vec.sub x' x) ^ 2 / (2 * step) := by
  obtain ⟨anchor, rfl⟩ := Vec.exists_eq_ofFn hanchor
  obtain ⟨u, rfl⟩ := Vec.exists_eq_ofFn hx
  obtain ⟨u', rfl⟩ := Vec.exists_eq_ofFn hx'
  simp only [valueAt, slopeAt, Scalar.half_real, Vec.sub_ofFn, Vec.divide_ofFn, Vec.dot_ofFn,
    Vec.norm_ofFn_sq]
  rw [Finset.mul_sum, Finset.mul_sum, Finset.sum_div, ← Finset.sum_add_distrib,
    ← Finset.sum_add_distrib]
  refine Finset.sum_congr rfl fun i _ => ?_
  ring

theorem valueAt_anchor : valueAt step anchor anchor = 0 := by
  have square := Vec.norm_sq (Vec.sub anchor anchor)
  rw [Vec.norm_sub_self] at square
  rw [valueAt, ← square]
  ring

end ProximalPoint

namespace Session

/-- With exact scalars the objective of a tower is the quadratic with curvature `1 / step` that vanishes
at the anchor. -/
theorem Reachable.objective_of_tower {session : Session ℝ} (reachable : session.Reachable)
    {outermost : ProximalPoint ℝ} {lower : List (ProximalPoint ℝ)} {base : Model ℝ}
    (member : Model.tower (outermost :: lower) base ∈ session.models) :
    let tower := Model.tower (outermost :: lower) base
    (∀ {x x' : List ℝ}, x.length = base.header.nvar → x'.length = base.header.nvar →
      ∃ value slope, (tower.oracle.objective (.vector x)).outcome session.store = .ok value ∧
        (tower.oracle.gradient (.vector x) none).outcome session.store = .ok slope ∧
        (tower.oracle.objective (.vector x')).outcome session.store =
          .ok (value + Vec.dot slope (Vec.sub x' x) +
            Vec.norm (Vec.sub x' x) ^ 2 / (2 * outermost.step))) ∧
    (tower.oracle.objective (.vector outermost.anchor)).outcome session.store = .ok 0 := by
  intro tower
  have family := reachable.sound.family
  have anchored := Model.anchoredAt_tower family member
  have nvar : (Model.tower lower base).header.nvar = base.header.nvar := by
    simpa using (Model.sameBesideObjective_tower family (family.bases member rfl)).nvar
  have anchor : outermost.anchor.length = base.header.nvar :=
    (family.regular member).2.2.trans nvar
  have objective : ∀ {x : List ℝ}, x.length = base.header.nvar →
      (tower.oracle.objective (.vector x)).outcome session.store =
        .ok (ProximalPoint.valueAt outermost.step outermost.anchor x) := by
    intro x hx
    rw [anchored.objective, Tensor.shape_vector, hx, Model.oracle_header, Eval.checkVectors_self_bind]
    rfl
  refine ⟨fun {x x'} hx hx' => ?_, ?_⟩
  · refine ⟨_, ProximalPoint.slopeAt outermost.step outermost.anchor x, objective hx, ?_, ?_⟩
    · rw [anchored.gradient, Tensor.shape_vector, hx, Model.oracle_header, Oracle.shape_buffer_none,
        Eval.checkVectors_self_self_bind]
      rfl
    · rw [objective hx', ProximalPoint.valueAt_expand anchor hx hx']
  · rw [objective anchor, ProximalPoint.valueAt_anchor]

end Session

/-! ### Building towers -/

/-- The subproblem that is built with a step and defaults. -/
noncomputable def ProximalPoint.ofDefaults (base : Header ℝ) (step : ℝ) (serial : Nat) :
    ProximalPoint ℝ :=
  ⟨⟨serial, ⟨base.nvar, base.ncon, base.x0, base.y0, true, Wrapper.derivedName base "-prox" none⟩,
    true⟩, step, base.x0⟩

/-- The defaults pass every check. -/
theorem ProximalPoint.run_build_default {base : Header ℝ} {step : ℝ} (positive : 0 < step)
    (nvar : 1 ≤ base.nvar) (x0 : base.x0.length = base.nvar) (y0 : base.y0.length = base.ncon)
    (store : Store ℝ) : (build base step none none none true).run store =
      .ok (ofDefaults base step store.next)
        (store.issue 1 [.proximalPointBuilt base.name step]) := by
  have valid : base.nvar ≠ 0 := by omega
  simp [build, Oracle.requirePositiveStep, positive, Eval.checkVectors, Header.replace, Header.make,
    x0, y0, valid]
  rfl

/-- On two known models with the same variables and the same initial guess, problems with the same data
can be built. -/
theorem Feasibility.exists_sameProblem {session : Session ℝ} (reachable : session.Reachable)
    {first second : Model ℝ} (firstKnown : first ∈ session.models)
    (secondKnown : second ∈ session.models) (nvar : 1 ≤ first.header.nvar)
    (x0 : first.header.x0.length = first.header.nvar)
    (sameNvar : first.header.nvar = second.header.nvar)
    (sameX0 : first.header.x0 = second.header.x0) :
    ∃ (later : Session ℝ) (node other : Feasibility ℝ), later.Reachable ∧
      .feasibility node first ∈ later.models ∧ .feasibility other second ∈ later.models ∧
      node.SameProblem other := by
  obtain ⟨between, reachable, models, _⟩ := exists_default reachable firstKnown nvar x0
  have known : second ∈ between.models := by
    rw [models]
    exact .tail _ secondKnown
  obtain ⟨later, reachable, laterModels, _⟩ := exists_default reachable known (sameNvar ▸ nvar)
    (by rw [← sameX0, x0, sameNvar])
  refine ⟨later, ofDefaults first.header session.store.next,
    ofDefaults second.header between.store.next, reachable, ?_, ?_, ?_⟩
  · rw [laterModels, models]
    exact .tail _ (.head _)
  · rw [laterModels]
    exact .head _
  · exact {
      loss := rfl
      huber := rfl
      weight := rfl
      withIndicator := rfl
      center := sameX0
      scaling := congrArg Vec.ones sameNvar }

/-- Headers with the same dimensions and the same initial guesses. -/
structure Header.SameGuesses (first second : Header ℝ) : Prop where
  nvar : first.nvar = second.nvar
  ncon : first.ncon = second.ncon
  x0 : first.x0 = second.x0
  y0 : first.y0 = second.y0

namespace Session

/-- In every session, a tower with any positive steps can be built on a known base with a valid header.
Its layers are anchored at the initial guess of the base. -/
theorem exists_tower {session : Session ℝ} (reachable : session.Reachable) {base : Model ℝ}
    (known : base ∈ session.models) (nvar : 1 ≤ base.header.nvar)
    (x0 : base.header.x0.length = base.header.nvar) (y0 : base.header.y0.length = base.header.ncon)
    {steps : List ℝ} (positive : ∀ step ∈ steps, 0 < step) :
    ∃ (later : Session ℝ) (layers : List (ProximalPoint ℝ)), later.Reachable ∧
      Model.tower layers base ∈ later.models ∧ layers.map ProximalPoint.step = steps ∧
      (∀ node ∈ layers, node.anchor = base.header.x0) ∧
      (Model.tower layers base).header.SameGuesses base.header := by
  induction steps with
  | nil =>
      refine ⟨session, [], reachable, known, rfl, ?_, ⟨rfl, rfl, rfl, rfl⟩⟩
      intro node member
      cases member
  | cons step steps ih =>
      obtain ⟨later, layers, reachable, member, same, anchors, guesses⟩ :=
        ih fun other among => positive other (.tail _ among)
      have admits : later.Admits (.build
          (.proximalSubproblem (Model.tower layers base) step none none none true)) :=
        ⟨trivial, fun _ same => Option.some.inj same ▸ member, trivial⟩
      have built := ProximalPoint.run_build_default (positive step (.head _)) (guesses.nvar ▸ nvar)
        (by rw [guesses.x0, guesses.nvar, x0]) (by rw [guesses.y0, guesses.ncon, y0]) later.store
      refine ⟨_, _ :: layers, reachable.build admits (run_bind_of_ok built), .head _, ?_, ?_,
        ⟨guesses.nvar, guesses.ncon, guesses.x0, guesses.y0⟩⟩
      · rw [List.map_cons, same]
        rfl
      · intro node among
        rcases List.mem_cons.1 among with rfl | below
        · exact guesses.x0
        · exact anchors node below

/-- Two layers above the slack reformulation of the box problem, and two feasibility problems with the same
data, one on the tower and one on the slack reformulation. -/
theorem exists_tower_box : ∃ (session : Session ℝ) (outermost inner : ProximalPoint ℝ)
    (first second : Feasibility ℝ), session.Reachable ∧
      .feasibility first (.tower [outermost, inner] (.slack boxSlack (.backend boxLeaf))) ∈
        session.models ∧
      .feasibility second (.slack boxSlack (.backend boxLeaf)) ∈ session.models ∧
      first.SameProblem second ∧ outermost.step = 1 / 2 ∧ outermost.anchor = [0, 0, 0] := by
  have positive : ∀ step ∈ [(1 : ℝ) / 2, 1], 0 < step := by
    intro step member
    rcases List.mem_pair.1 member with rfl | rfl
    · norm_num
    · norm_num
  obtain ⟨towered, layers, reachable, member, steps, anchors, guesses⟩ :=
    exists_tower reachable_boxed boxSlack_mem_boxed (by decide) rfl rfl positive
  obtain ⟨outermost, others, rfl, step, steps⟩ := List.map_eq_cons_iff.1 steps
  obtain ⟨inner, others, rfl, _, steps⟩ := List.map_eq_cons_iff.1 steps
  obtain rfl := List.map_eq_nil_iff.1 steps
  have slack := Model.mem_of_tower_mem reachable.sound.family member
  obtain ⟨session, first, second, reachable, firstMember, secondMember, same⟩ :=
    Feasibility.exists_sameProblem reachable member slack (by rw [guesses.nvar]; decide)
      (by rw [guesses.x0, guesses.nvar]; rfl) guesses.nvar guesses.x0
  exact ⟨session, outermost, inner, first, second, reachable, firstMember, secondMember, same, step,
    anchors outermost (.head _)⟩

/-! ### Every session -/

/-- A tower of proximal-point subproblems replaces the smooth part of its base and nothing else, whatever
the scalars are. Its objective depends on the outermost step and anchor alone, and with exact scalars it
is the quadratic with curvature `1 / step` that vanishes at the anchor. Feasibility problems cannot tell
the tower from the base. -/
theorem towers_replace_smooth_part :
    (∀ {α : Type} [Elementary α] [Scalar.EvenSquares α] {session : Session α}, session.Reachable →
      ∀ {outermost : ProximalPoint α} {lower : List (ProximalPoint α)} {base : Model α},
      Model.tower (outermost :: lower) base ∈ session.models →
      let tower := Model.tower (outermost :: lower) base
      tower.oracle.SameBesideObjective base.oracle ∧
      tower.oracle.AnchoredAt base.oracle outermost.step outermost.anchor ∧
      session.FeasiblyAlike tower base) ∧
    ∀ {session : Session ℝ}, session.Reachable →
      ∀ {outermost : ProximalPoint ℝ} {lower : List (ProximalPoint ℝ)} {base : Model ℝ},
      Model.tower (outermost :: lower) base ∈ session.models →
      let tower := Model.tower (outermost :: lower) base
      (∀ {x x' : List ℝ}, x.length = base.header.nvar → x'.length = base.header.nvar →
        ∃ value slope, (tower.oracle.objective (.vector x)).outcome session.store = .ok value ∧
          (tower.oracle.gradient (.vector x) none).outcome session.store = .ok slope ∧
          (tower.oracle.objective (.vector x')).outcome session.store =
            .ok (value + Vec.dot slope (Vec.sub x' x) +
              Vec.norm (Vec.sub x' x) ^ 2 / (2 * outermost.step))) ∧
      (tower.oracle.objective (.vector outermost.anchor)).outcome session.store = .ok 0 := by
  constructor
  · intro α _ _ session reachable outermost lower base member tower
    have family := reachable.sound.family
    have same := Model.sameBesideObjective_tower family member
    exact ⟨same, Model.anchoredAt_tower family member, reachable.sound.feasiblyAlike same⟩
  · intro session reachable outermost lower base member tower
    exact reachable.objective_of_tower member

/-- Both layers measure the distance to the set by projecting, which the slack reformulation does not. The
outermost step is one half, so the objective at the first unit vector is one. -/
theorem towers_replace_smooth_part_box : ∃ (session : Session ℝ) (tower : Model ℝ)
    (first second : Feasibility ℝ), session.Reachable ∧ tower ∈ session.models ∧
      (∀ v, tower.oracle.distance v =
        (Model.slack boxSlack (.backend boxLeaf)).oracle.distance v) ∧
      (tower.oracle.objective (.vector [1, 0, 0])).outcome session.store = .ok 1 ∧
      (tower.oracle.objective (.vector [0, 0, 0])).outcome session.store = .ok 0 ∧
      ∀ question, (first.ask tower.oracle question).outcome session.store =
        (second.ask (Model.slack boxSlack (.backend boxLeaf)).oracle question).outcome
          session.store := by
  obtain ⟨session, outermost, inner, first, second, reachable, member, baseMember, problem, step,
    anchor⟩ := exists_tower_box
  have known := reachable.sound.family.bases member rfl
  obtain ⟨generic, exact⟩ := towers_replace_smooth_part
  obtain ⟨same, anchored, alike⟩ := generic reachable known
  obtain ⟨_, atAnchor⟩ := exact reachable known
  rw [anchor] at atAnchor
  have value : ProximalPoint.valueAt (1 / 2) [0, 0, 0] [1, 0, 0] = (1 : ℝ) := by
    show Scalar.half / (1 / 2) *
      (0 + (1 - 0) * (1 - 0) + (0 - 0) * (0 - 0) + (0 - 0) * (0 - 0) : ℝ) = 1
    norm_num [Scalar.half_real]
  refine ⟨session, _, first, second, reachable, known, same.distance, ?_, atAnchor,
    alike.questions member baseMember problem (.inl (Model.pointFunction _))⟩
  rw [anchored.objective, step, anchor]
  exact congrArg Except.ok value

end Session

end CompositeModels
