/-
Module: CompositeModels.Proofs.Sense
Purpose: What the penalty of an augmented Lagrangian means for the sense in which its objective is
  optimised. Without multipliers, the penalty is half the scaled squared distance of the constraint
  values from the set of the base. It is added to the objective whatever the sense is, and the sense is
  that of the base. A minimum is penalised for a violation, and a maximum is improved by it.
Main exports: AugmentedLagrangian.valueAt_zero, AugmentedPoint.outcome_objective_zero,
  Session.Reachable.penalty_raises_objective
-/
import CompositeModels.Proofs.Inheritance
import CompositeModels.Proofs.SlackElimination

namespace CompositeModels

variable {n : ℕ} {session : Session ℝ} {node : AugmentedLagrangian ℝ} {base : Model ℝ}

/-! ### Values without multipliers -/

/-- Without multipliers nothing is shifted. -/
theorem AugmentedLagrangian.valueAt_zero (f : ℝ) (c mu s : Fin n → ℝ) :
    valueAt f c mu (fun _ => 0) s = f + 1 / 2 * scaledSquaredDistance mu c s := by
  simp [valueAt]

/-- The objective is above that of the base by half the scaled squared distance of the constraint values
from their projection, so it is the same exactly if the values are in the set. -/
theorem AugmentedPoint.outcome_objective_zero {mu c : Fin base.header.ncon → ℝ} {x : List ℝ} {f : ℝ}
    (point : AugmentedPoint session node base (List.ofFn mu) (Vec.zeros base.header.ncon) x)
    {S : Set (Fin base.header.ncon → ℝ)} (projects : base.ProjectsOnto session.store S)
    (objective : (base.oracle.objective (.vector x)).outcome session.store = .ok f)
    (constraints : (base.oracle.constraints (.vector x) none).outcome session.store =
      .ok (List.ofFn c)) :
    ∃ v, ((Model.augmentedLagrangian node base).oracle.objective (.vector x)).outcome session.store =
        .ok v ∧ f ≤ v ∧ (v = f ↔ c ∈ S) := by
  obtain ⟨z, nearest, project⟩ := projects c
  have positive : ∀ i, 0 < mu i := fun i => point.positive _ (List.mem_ofFn.2 ⟨i, rfl⟩)
  have unshifted : (fun i => c i + mu i * 0) = c := by simp
  rw [Vec.zeros_eq_ofFn] at point
  rw [← unshifted] at project
  refine ⟨_, point.outcome_objective_eq_valueAt objective constraints project, ?_⟩
  have nonneg := scaledSquaredDistance_nonneg positive c z
  rw [AugmentedLagrangian.valueAt_zero, nearest.mem_iff,
    ← scaledSquaredDistance_eq_zero_iff positive]
  constructor
  · linarith
  · constructor <;> intro same <;> linarith

/-- In every session, an augmented Lagrangian without multipliers announces the sense of its base, and
whatever the sense is, its objective is not below that of the base. The two are equal exactly if the
constraint values are in the set that the base projects onto. -/
theorem Session.Reachable.penalty_raises_objective (reachable : session.Reachable)
    (member : .augmentedLagrangian node base ∈ session.models) {mu : Fin base.header.ncon → ℝ}
    (inForce : node.InForce session.store (List.ofFn mu) (Vec.zeros base.header.ncon))
    {S : Set (Fin base.header.ncon → ℝ)} (projects : base.ProjectsOnto session.store S) {x : List ℝ}
    {f : ℝ} (objective : (base.oracle.objective (.vector x)).outcome session.store = .ok f)
    {c : Fin base.header.ncon → ℝ}
    (constraints : (base.oracle.constraints (.vector x) none).outcome session.store =
      .ok (List.ofFn c)) :
    (Model.augmentedLagrangian node base).header.minimize = base.header.minimize ∧
      ∃ v, ((Model.augmentedLagrangian node base).oracle.objective (.vector x)).outcome
          session.store = .ok v ∧
        f ≤ v ∧ (v = f ↔ c ∈ S) := by
  have sound := reachable.sound
  have baseMember : base ∈ session.models := sound.family.bases member rfl
  have lengthX : x.length = base.header.nvar :=
    sound.length_of_objective baseMember base.repeatable objective
  have point : AugmentedPoint session node base (List.ofFn mu) (Vec.zeros base.header.ncon) x :=
    ⟨sound, member, inForce, lengthX⟩
  exact ⟨(reachable.isBuiltOn member).minimize,
    point.outcome_objective_zero projects objective constraints⟩

/-! ### The ball problem -/

namespace Session

/-- The ball problem is minimised. At `x = 2` the constraint values `(5, 12)` are outside of the ball, at
`x = 0` they are on its boundary. -/
theorem penalty_raises_objective_ball :
    ∃ (node : AugmentedLagrangian ℝ) (session : Session ℝ), session.Reachable ∧
      .augmentedLagrangian node ball ∈ session.models ∧
      (∃ v, ((Model.augmentedLagrangian node ball).oracle.objective (.vector [2])).outcome
        session.store = .ok v ∧ 2 < v) ∧
      ((Model.augmentedLagrangian node ball).oracle.objective (.vector [0])).outcome
        session.store = .ok 0 := by
  obtain ⟨node, session, reachable, models, _, inForce⟩ := exists_augmented_ball one_pos two_pos 0 0
  have member : .augmentedLagrangian node ball ∈ session.models := by
    rw [models]
    exact .head _
  have sound := reachable.sound
  have baseMember : ball ∈ session.models := sound.family.bases member rfl
  have projects := sound.projectsOnto_ball baseMember
  have parameters : [(1 : ℝ), 2] = List.ofFn ![1, 2] := by simp
  rw [parameters] at inForce
  have boundary : [3 + (0 : ℝ), 4 + 4 * 0] = List.ofFn ![3, 4] := by simp
  have constraints := sound.outcome_constraints_ball baseMember 0
  rw [boundary] at constraints
  obtain ⟨_, v, outside, raised, exactly⟩ := reachable.penalty_raises_objective member inForce projects
    (sound.outcome_objective_ball baseMember 2) (sound.outcome_constraints_ball_two baseMember)
  obtain ⟨_, u, inside, _, same⟩ := reachable.penalty_raises_objective member inForce projects
    (sound.outcome_objective_ball baseMember 0) constraints
  have notInBall : ![(5 : ℝ), 12] ∉ centeredBall 2 5 := by
    norm_num [centeredBall, Fin.sum_univ_two]
  have inBall : ![(3 : ℝ), 4] ∈ centeredBall 2 5 := by
    norm_num [centeredBall, Fin.sum_univ_two]
  refine ⟨node, session, reachable, member, ⟨v, outside, lt_of_le_of_ne raised ?_⟩, ?_⟩
  · exact fun equal => notInBall (exactly.1 equal.symm)
  · rw [inside, same.2 inBall]

/-! ### A maximum -/

/-- The objective `x` is maximised, and the constraint map is `c(x) = x`. -/
noncomputable def peakLeaf : Model ℝ :=
  .expression ⟨⟨1, 1, [0], [0], false, "peak"⟩, .entry 0, [.entry 0]⟩

/-- The constraint value is to be zero. -/
noncomputable def peak : Model ℝ :=
  .tailored ⟨⟨0, ⟨1, 1, [0], [0], false, "peak"⟩, true⟩, some .zero, none⟩ peakLeaf

/-- The session in which both models were built. -/
noncomputable def peaked : Session ℝ := ({} : Session ℝ).run
  [.build (.ofExpressions (.entry 0) (.vector [0]) (some { expressions := [.entry 0] }) none false
      "peak"),
    .build (.tailor peakLeaf {} (some .zero) none true)]

theorem reachable_peaked : peaked.Reachable := by
  refine Reachable.run .start ⟨⟨?_, ?_, trivial⟩, ⟨⟨?_, ?_⟩, ?_, trivial⟩, trivial⟩
  · intro constraintMap same
    cases same
    exact ConstraintMap.consistent_of_undeclared rfl
  · intro base same
    cases same
  · intro set same
    cases same
    exact ConstraintSet.keepsLength_zero
  · intro g same
    cases same
  · intro base same
    cases same
    exact .head _

theorem Sound.projectsOnto_peak {session : Session ℝ} (sound : session.Sound)
    (member : peak ∈ session.models) : peak.ProjectsOnto session.store {0} := by
  intro v
  refine ⟨0, ⟨rfl, ?_⟩, ?_⟩
  · rintro s rfl
    rfl
  · have length : (List.ofFn v).length = peak.constraintMeaning.ncon := List.length_ofFn
    rw [sound.outcome_project member, ConstraintMeaning.projectAt_vector length]
    change Except.ok (Vec.zeroed (List.ofFn v)) = _
    rw [Vec.zeroed_ofFn]
    rfl

/-- The base is maximised, and so is its augmented Lagrangian. At `x = 1` the constraint is violated by
one, and the objective is better by one half. -/
theorem penalty_improves_maximum_peak :
    ∃ (node : AugmentedLagrangian ℝ) (session : Session ℝ), session.Reachable ∧
      .augmentedLagrangian node peak ∈ session.models ∧
      node.InForce session.store [1] [0] ∧ peak.ProjectsOnto session.store {0} ∧
      (Model.augmentedLagrangian node peak).header.minimize = false ∧
      (peak.oracle.constraints (.vector [1]) none).outcome session.store = .ok [1] ∧
      (peak.oracle.objective (.vector [1])).outcome session.store = .ok 1 ∧
      ((Model.augmentedLagrangian node peak).oracle.objective (.vector [1])).outcome session.store =
        .ok (3 / 2) := by
  have known : peak ∈ peaked.models := .head _
  have isOf : AugmentedLagrangian.IsOf ⟨⟨0, ⟨1, 0, [0], [], false, "peak-al"⟩, true⟩,
      .ofVectors (.vector [1]) (.vector [0])⟩ peak.header (.vector [1]) (.vector [0]) none true := {
    constrained := rfl
    admissible := ⟨rfl, rfl, by simp [Vec.allPositive]⟩
    header := rfl
    ownsBase := rfl
    penalty := rfl }
  obtain ⟨node, session, reachable, models, _, inForce⟩ := reachable_peaked.exists_augmented known isOf
  have member : .augmentedLagrangian node peak ∈ session.models := by
    rw [models]
    exact .head _
  have sound := reachable.sound
  have baseMember : peak ∈ session.models := sound.family.bases member rfl
  have projects := sound.projectsOnto_peak baseMember
  have constraints : (peak.oracle.constraints (.vector [1]) none).outcome session.store = .ok [1] := by
    rw [sound.outcome_constraints baseMember]
    rfl
  have objective : (peak.oracle.objective (.vector [1])).outcome session.store = .ok 1 := by
    rw [sound.outcome_objective baseMember peak.repeatable]
    rfl
  have singleton : ∀ a : ℝ, [a] = List.ofFn fun _ : Fin 1 => a := fun a => by simp
  have point : AugmentedPoint session node peak (List.ofFn fun _ : Fin 1 => (1 : ℝ))
      (List.ofFn fun _ => 0) [1] := ⟨sound, member, by rwa [← singleton, ← singleton], rfl⟩
  have project : (peak.oracle.project (.vector (List.ofFn fun _ : Fin 1 => (1 : ℝ) + 1 * 0))
      none).outcome session.store = .ok (List.ofFn fun _ : Fin 1 => 0) := by
    rw [sound.outcome_project baseMember]
    rfl
  have values := constraints
  rw [singleton] at values
  refine ⟨node, session, reachable, member, inForce, projects,
    (reachable.isBuiltOn member).minimize, constraints, objective, ?_⟩
  rw [point.outcome_objective_eq_valueAt objective values project, AugmentedLagrangian.valueAt_zero]
  norm_num [scaledSquaredDistance]

end Session

end CompositeModels
