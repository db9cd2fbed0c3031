/-
Module: CompositeModels.Proofs.Projection
Purpose: Every stack over a backend projects onto the set of its constraint values, in exact arithmetic:
  the box of the bounds at the leaf, the zero vector for a slack reformulation, the set of the base for a
  proximal-point subproblem. Projections are nearest points and move no two vectors apart, and the
  distance is that to the projection, however a layer computes it. With the sets at hand, so are the
  terms: each stack computes the proximal operator of the term that its layers make up.
Main exports: Model.valueSet, Model.packagedTerm, IsProjection, Model.ProjectsBy,
  Session.Sound.exists_projection, Session.Sound.projectsOnto_valueSet,
  Session.Sound.represents_packagedTerm, Session.Reachable.computesProximal_packagedTerm,
  Session.Reachable.projections_are_nearest
-/
import CompositeModels.Proofs.ProximalOperator
import CompositeModels.Proofs.Transpose

namespace CompositeModels

/-- The vectors that a stack without tailored layers admits as constraint values. Without constraints
there is the empty vector only, and a leaf that is given by expressions comes without a set. -/
def Model.valueSet : Model ℝ → Set (List ℝ)
  | .backend leaf => {z | leaf.constraintBox.Contains z}
  | .slack node _ => {Vec.zeros node.header.ncon}
  | .proximalPoint _ base => base.valueSet
  | .augmentedLagrangian .. | .feasibility .. => {Vec.zeros 0}
  | .expression _ | .tailored .. => ∅

/-- The proximable term of a stack over a backend without tailored layers: the indicator of the box of its
variables, with the slacks of each slack reformulation in the set of its base. -/
noncomputable def Model.packagedTerm : Model ℝ → List ℝ → WithTop ℝ
  | .backend leaf => indicator {z | leaf.variableBox.Contains z}
  | .slack _ base => besideIndicator base.header.nvar base.packagedTerm
      {z : Fin base.header.ncon → ℝ | List.ofFn z ∈ base.valueSet}
  | .proximalPoint _ base | .augmentedLagrangian _ base => base.packagedTerm
  | .feasibility node base => if node.withIndicator then base.packagedTerm else 0
  | .expression _ | .tailored .. => 0

/-! ### Answers -/

section Answers

variable {α : Type} [Elementary α] {session : Session α} (sound : session.Sound)
include sound

/-- Without constraints the projection is empty. -/
theorem Session.Sound.outcome_project_unconstrained {model : Model α}
    (member : model ∈ session.models) (unconstrained : model.header.ncon = 0) {v : List α}
    (length : v.length = model.header.ncon) :
    (model.oracle.project (.vector v) none).outcome session.store = .ok [] := by
  rw [sound.outcome_project member, ConstraintMeaning.projectAt_vector (by simpa using length)]
  simp [unconstrained]

/-- With constraints the model itself is asked. -/
theorem Session.Sound.outcome_project_constrained {model : Model α} (member : model ∈ session.models)
    (constrained : 0 < model.header.ncon) {v : List α} (length : v.length = model.header.ncon) :
    (model.oracle.project (.vector v) none).outcome session.store =
      model.constraintMeaning.project v := by
  rw [sound.outcome_project member, ConstraintMeaning.projectAt_vector (by simpa using length)]
  exact if_pos (by simpa using constrained)

/-- The projections of a proximal-point subproblem are those of its base. -/
theorem Session.Sound.outcome_project_proximalPoint {node : ProximalPoint α} {base : Model α}
    (member : .proximalPoint node base ∈ session.models) {v : List α}
    (length : v.length = base.header.ncon) :
    ((Model.proximalPoint node base).oracle.project (.vector v) none).outcome session.store =
      (base.oracle.project (.vector v) none).outcome session.store := by
  have baseMember : base ∈ session.models := sound.family.bases member rfl
  obtain ⟨_, ncon, _⟩ := sound.family.regular member
  rcases Nat.eq_zero_or_pos base.header.ncon with unconstrained | constrained
  · rw [sound.outcome_project_unconstrained member (ncon.trans unconstrained)
      (length.trans ncon.symm), sound.outcome_project_unconstrained baseMember unconstrained length]
  · rw [sound.outcome_project_constrained member (ncon ▸ constrained) (length.trans ncon.symm),
      sound.outcome_project baseMember]
    rfl

end Answers

/-! ### Projections -/

/-- The map `P` projects the vectors of length `n` onto `S`. -/
structure IsProjection (n : ℕ) (S : Set (List ℝ)) (P : List ℝ → List ℝ) : Prop where
  length : ∀ s ∈ S, s.length = n
  member : ∀ {v}, v.length = n → P v ∈ S
  nearest : ∀ {v}, v.length = n → ∀ s ∈ S, Vec.norm (Vec.sub (P v) v) ≤ Vec.norm (Vec.sub s v)
  nonexpansive : ∀ {v w}, v.length = n → w.length = n →
    Vec.norm (Vec.sub (P v) (P w)) ≤ Vec.norm (Vec.sub v w)

namespace IsProjection

variable {n : ℕ} {S : Set (List ℝ)} {P : List ℝ → List ℝ} (projection : IsProjection n S P)
include projection

theorem length_eq {v : List ℝ} (length : v.length = n) : (P v).length = n :=
  projection.length _ (projection.member length)

/-- A member of the set is nearest to itself. -/
theorem eq_self {s : List ℝ} (member : s ∈ S) : P s = s := by
  have length := projection.length s member
  have nearest := projection.nearest length s member
  rw [Vec.norm_sub_self] at nearest
  exact (Vec.norm_sub_eq_zero_iff (projection.length_eq length) length).1
    (nearest.antisymm (Vec.norm_nonneg _))

theorem norm_eq_zero_iff {v : List ℝ} (length : v.length = n) :
    Vec.norm (Vec.sub (P v) v) = 0 ↔ v ∈ S := by
  rw [Vec.norm_sub_eq_zero_iff (projection.length_eq length) length]
  constructor
  · intro same
    exact same ▸ projection.member length
  · exact projection.eq_self

end IsProjection

theorem isProjection_clamp {box : Box ℝ} (ordered : box.Ordered) :
    IsProjection box.length {z | box.Contains z} box.clamp where
  length := fun _ contains => Box.length_of_contains contains
  member := fun length => Box.contains_clamp ordered length.symm
  nearest := fun length _ contains =>
    Vec.norm_le_of_sq_le (Box.norm_clamp_sub_sq_le contains length.symm)
  nonexpansive := fun lengthV lengthW =>
    Vec.norm_le_of_sq_le (Box.norm_clamp_sub_clamp_sq_le ordered lengthV.symm lengthW.symm)

/-- The only vector of the set is the nearest one. -/
theorem isProjection_zeros (n : ℕ) :
    IsProjection n {Vec.zeros n} fun _ => Vec.zeros n where
  length := by
    intro s member
    rw [Set.mem_singleton_iff.1 member, Vec.length_zeros]
  member := fun _ => rfl
  nearest := by
    intro v _ s member
    rw [Set.mem_singleton_iff.1 member]
  nonexpansive := by
    intro v w _ _
    rw [Vec.norm_sub_self]
    exact Vec.norm_nonneg _

/-! ### Stacks -/

/-- The model returns `P v` as the projection of `v`, and the norm of `P v - v` as the distance. -/
structure Model.ProjectsBy (model : Model ℝ) (store : Store ℝ) (P : List ℝ → List ℝ) : Prop where
  project : ∀ {v}, v.length = model.header.ncon →
    (model.oracle.project (.vector v) none).outcome store = .ok (P v)
  distance : ∀ {v}, v.length = model.header.ncon →
    (model.oracle.distance (.vector v)).outcome store = .ok (Vec.norm (Vec.sub (P v) v))

section Stacks

variable {session : Session ℝ} {model : Model ℝ}

/-- It is enough that the model answers so where it has constraints. Where it has none, it answers with the
empty vector and with zero, without being asked, and so does any projection. -/
theorem Model.ProjectsBy.of_meaning (sound : session.Sound) (member : model ∈ session.models)
    {P : List ℝ → List ℝ} (length : ∀ {v}, v.length = model.header.ncon →
      (P v).length = model.header.ncon)
    (project : ∀ {v}, 0 < model.header.ncon → v.length = model.header.ncon →
      model.constraintMeaning.project v = .ok (P v))
    (distance : ∀ {v}, 0 < model.header.ncon → v.length = model.header.ncon →
      model.constraintMeaning.distance v = .ok (Vec.norm (Vec.sub (P v) v))) :
    model.ProjectsBy session.store P := by
  have empty : ∀ {v : List ℝ}, ¬ 0 < model.header.ncon → v.length = model.header.ncon → v = [] :=
    fun none lengthV => List.eq_nil_of_length_eq_zero (by omega)
  constructor
  · intro v lengthV
    rw [sound.outcome_project member, ConstraintMeaning.projectAt_vector (by simpa using lengthV),
      Model.ncon_constraintMeaning]
    split
    · next constrained => exact project constrained lengthV
    · next none => rw [empty none (length lengthV)]
  · intro v lengthV
    rw [sound.outcome_distance member, ConstraintMeaning.distanceAt_vector (by simpa using lengthV),
      Model.ncon_constraintMeaning]
    split
    · next constrained => exact distance constrained lengthV
    · next none =>
        rw [empty none (length lengthV), empty none lengthV, Vec.norm_sub_self]

/-- A reformulation without constraints has the empty vector only, and is not asked for more. -/
theorem Model.ProjectsBy.of_unconstrained (sound : session.Sound) (member : model ∈ session.models)
    (unconstrained : model.header.ncon = 0) :
    model.ProjectsBy session.store fun _ => Vec.zeros 0 := by
  have never : ¬ 0 < model.header.ncon := by omega
  exact .of_meaning sound member (fun _ => unconstrained.symm)
    (fun constrained => absurd constrained never) fun constrained => absurd constrained never

/-- Each layer of a stack answers by a projection onto its set. The set of a slack reformulation does not
depend on what is below, and its distance is computed without a projection. -/
theorem Session.Sound.exists_projection (sound : session.Sound) (member : model ∈ session.models)
    (packaged : model.IsPackaged) {leaf : BackendLeaf ℝ} (built : model.leaf = .backend leaf)
    (ordered : leaf.constraintBox.Ordered) :
    ∃ P, IsProjection model.header.ncon model.valueSet P ∧ model.ProjectsBy session.store P := by
  induction model with
  | backend known =>
      cases built
      obtain ⟨_, _, lengthBox⟩ := sound.family.regular member
      have projection := isProjection_clamp ordered
      rw [lengthBox] at projection
      exact ⟨_, projection, .of_meaning sound member projection.length_eq (fun _ _ => rfl)
        fun _ _ => rfl⟩
  | expression known => cases built
  | slack node base ih =>
      have projection := isProjection_zeros node.header.ncon
      refine ⟨_, projection, .of_meaning sound member projection.length_eq ?_ ?_⟩
      · intro v _ length
        have zeroed : Vec.zeroed v = Vec.zeros node.header.ncon := by
          rw [Vec.zeroed_eq_zeros, length]
          rfl
        exact congrArg Except.ok zeroed
      · intro v _ length
        exact congrArg Except.ok (Vec.norm_zeros_sub length).symm
  | proximalPoint node base ih =>
      have baseMember : base ∈ session.models := sound.family.bases member rfl
      obtain ⟨_, ncon, _⟩ := sound.family.regular member
      have ncon : (Model.proximalPoint node base).header.ncon = base.header.ncon := ncon
      obtain ⟨P, projection, projects⟩ := ih baseMember packaged built
      have answer : ∀ {v : List ℝ}, v.length = base.header.ncon →
          base.constraintMeaning.projectAt (.vector v) none = .ok (P v) := by
        intro v length
        rw [← sound.outcome_project baseMember]
        exact projects.project length
      rw [← ncon] at projection answer
      refine ⟨P, projection, .of_meaning sound member projection.length_eq ?_ ?_⟩
      · exact fun _ length => answer length
      · intro v _ length
        simp only [Model.constraintMeaning, ProximalPoint.constraintMeaning,
          ConstraintMeaning.distanceToProjection, answer length]
        rfl
  | augmentedLagrangian node base ih =>
      obtain ⟨_, ncon, _⟩ := sound.family.regular member
      refine ⟨_, ?_, .of_unconstrained sound member ncon⟩
      rw [show (Model.augmentedLagrangian node base).header.ncon = 0 from ncon]
      exact isProjection_zeros 0
  | feasibility node base ih =>
      obtain ⟨_, ncon, _⟩ := sound.family.regular member
      refine ⟨_, ?_, .of_unconstrained sound member ncon⟩
      rw [show (Model.feasibility node base).header.ncon = 0 from ncon]
      exact isProjection_zeros 0
  | tailored node base ih => exact packaged.elim

/-- What a stack projects onto in the sense of nearest points is its set. -/
theorem Session.Sound.projectsOnto_valueSet (sound : session.Sound) (member : model ∈ session.models)
    (packaged : model.IsPackaged) {leaf : BackendLeaf ℝ} (built : model.leaf = .backend leaf)
    (ordered : leaf.constraintBox.Ordered) :
    model.ProjectsOnto session.store {z | List.ofFn z ∈ model.valueSet} := by
  obtain ⟨P, projection, projects⟩ := sound.exists_projection member packaged built ordered
  intro v
  have length : (List.ofFn v).length = model.header.ncon := List.length_ofFn
  obtain ⟨z, same⟩ := Vec.exists_eq_ofFn (projection.length_eq length)
  have projected := projects.project length
  have inside := projection.member length
  have nearest := projection.nearest length
  rw [same] at projected inside nearest
  refine ⟨z, ⟨inside, fun s member => ?_⟩, projected⟩
  rw [← norm_sub_ofFn_sq, ← norm_sub_ofFn_sq]
  exact pow_le_pow_left₀ (Vec.norm_nonneg _) (nearest _ member) 2

/-- Each layer keeps the term of its base or adds the indicator of the set that the base projects onto. -/
theorem Session.Sound.represents_packagedTerm (sound : session.Sound)
    (member : model ∈ session.models) (packaged : model.IsPackaged) {leaf : BackendLeaf ℝ}
    (built : model.leaf = .backend leaf) (orderedX : leaf.variableBox.Ordered)
    (orderedC : leaf.constraintBox.Ordered) :
    model.Represents session.store model.packagedTerm := by
  induction model with
  | backend known =>
      cases built
      exact .backend orderedX
  | expression known => cases built
  | slack node base ih =>
      have baseMember : base ∈ session.models := sound.family.bases member rfl
      exact .slack (ih baseMember packaged built)
        (sound.projectsOnto_valueSet baseMember packaged built orderedC)
  | proximalPoint node base ih =>
      exact .proximalPoint (ih (sound.family.bases member rfl) packaged built)
  | augmentedLagrangian node base ih =>
      exact .augmentedLagrangian (ih (sound.family.bases member rfl) packaged built)
  | feasibility node base ih =>
      have represents := ih (sound.family.bases member rfl) packaged built
      rw [Model.packagedTerm]
      split
      · next kept => exact .feasibility kept represents
      · next dropped => exact .withoutIndicator (Bool.eq_false_iff.2 dropped)
  | tailored node base ih => exact packaged.elim

/-- In every session, a stack over a backend with ordered bounds computes the proximal operator of its
term. -/
theorem Session.Reachable.computesProximal_packagedTerm (reachable : session.Reachable)
    (member : model ∈ session.models) (packaged : model.IsPackaged) {leaf : BackendLeaf ℝ}
    (built : model.leaf = .backend leaf) (orderedX : leaf.variableBox.Ordered)
    (orderedC : leaf.constraintBox.Ordered) :
    model.ComputesProximal session.store model.packagedTerm :=
  reachable.sound.computesProximal
    (reachable.sound.represents_packagedTerm member packaged built orderedX orderedC) member

/-- In every session, a stack over a backend with ordered bounds returns for `v` the point `z` of its set
that is nearest to `v`, and the distance between the two. Members of the set are their own projections, and
no two projections are further apart than what was projected. -/
theorem Session.Reachable.projections_are_nearest (reachable : session.Reachable)
    (member : model ∈ session.models) (packaged : model.IsPackaged) {leaf : BackendLeaf ℝ}
    (built : model.leaf = .backend leaf) (ordered : leaf.constraintBox.Ordered) {v : List ℝ}
    (length : v.length = model.header.ncon) :
    ∃ z, (model.oracle.project (.vector v) none).outcome session.store = .ok z ∧
      z ∈ model.valueSet ∧
      (∀ s ∈ model.valueSet, Vec.norm (Vec.sub z v) ≤ Vec.norm (Vec.sub s v)) ∧
      (∀ s ∈ model.valueSet, s.length = model.header.ncon ∧
        (model.oracle.project (.vector s) none).outcome session.store = .ok s) ∧
      (∀ w y : List ℝ, w.length = model.header.ncon →
        (model.oracle.project (.vector w) none).outcome session.store = .ok y →
        Vec.norm (Vec.sub z y) ≤ Vec.norm (Vec.sub v w)) ∧
      (model.oracle.distance (.vector v)).outcome session.store = .ok (Vec.norm (Vec.sub z v)) ∧
      ((model.oracle.distance (.vector v)).outcome session.store = .ok 0 ↔ v ∈ model.valueSet) := by
  obtain ⟨P, projection, projects⟩ :=
    reachable.sound.exists_projection member packaged built ordered
  refine ⟨P v, projects.project length, projection.member length, projection.nearest length,
    ?fixed, ?nonexpansive, projects.distance length, ?zero⟩
  case fixed =>
    intro s inside
    have lengthS := projection.length s inside
    have projected := projects.project lengthS
    rw [projection.eq_self inside] at projected
    exact ⟨lengthS, projected⟩
  case nonexpansive =>
    intro w y lengthW returned
    cases returned.symm.trans (projects.project lengthW)
    exact projection.nonexpansive length lengthW
  case zero =>
    rw [projects.distance length, Except.ok.injEq, projection.norm_eq_zero_iff length]

end Stacks

/-! ### The box problem -/

namespace Session

theorem ordered_boxLeaf : boxLeaf.constraintBox.Ordered := by
  intro interval member l u lower upper
  rcases List.mem_cons.1 member with rfl | member
  · cases lower
  · rw [List.mem_singleton.1 member] at lower upper
    cases lower
    cases upper
    exact zero_le_one

/-- The projection of `(2, -1)` onto the box of `c_1 <= 1` and `0 <= c_2 <= 1` has a bound active in each
entry. -/
theorem outcome_project_box :
    ((Model.backend boxLeaf).oracle.project (.vector [2, -1]) none).outcome boxed.store =
      .ok [1, 0] := by
  rw [reachable_boxed.sound.outcome_project_constrained boxLeaf_mem_boxed two_pos rfl]
  change Except.ok [Interval.clamp ⟨none, some 1⟩ (2 : ℝ), Interval.clamp ⟨some 0, some 1⟩ (-1)] = _
  rw [Interval.clamp_none_some, Interval.clamp_some_some]
  norm_num

/-- The projection of `(2, -1)` is in the box, so it is its own projection. -/
theorem projections_are_nearest_box :
    boxed.Reachable ∧
      ((Model.backend boxLeaf).oracle.project (.vector [2, -1]) none).outcome boxed.store =
        .ok [1, 0] ∧
      ((Model.backend boxLeaf).oracle.project (.vector [1, 0]) none).outcome boxed.store =
        .ok [1, 0] ∧
      ((Model.backend boxLeaf).oracle.distance (.vector [2, -1])).outcome boxed.store =
        .ok (Vec.norm (Vec.sub [1, 0] [2, -1])) ∧
      [1, 0] ∈ (Model.backend boxLeaf).valueSet := by
  obtain ⟨z, returned, inside, _, fixed, _, distance, _⟩ :=
    reachable_boxed.projections_are_nearest boxLeaf_mem_boxed trivial rfl ordered_boxLeaf
      (v := [2, -1]) rfl
  cases returned.symm.trans outcome_project_box
  exact ⟨reachable_boxed, outcome_project_box, (fixed _ inside).2, distance, inside⟩

end Session

end CompositeModels
