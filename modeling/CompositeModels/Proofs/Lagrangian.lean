/-
Module: CompositeModels.Proofs.Lagrangian
Purpose: What an augmented Lagrangian answers at a point, in terms of what its base answers there and of
  the penalty data in force. In exact arithmetic its value is that of the formula

    f + 0.5 * sum((w - z)^2 / mu) - 0.5 * sum(mu * y^2),   w = c + mu * y

  at the projection `z` of `w`, and that of the slack reformulation is the same formula at the slacks.
Main exports: AugmentedLagrangian.InForce, AugmentedPoint, AugmentedPoint.outcome_multiplierEstimate,
  AugmentedPoint.outcome_objective, AugmentedPoint.outcome_gradient, AugmentedLagrangian.valueAt,
  AugmentedPoint.outcome_objective_eq_valueAt, SlackPoint.outcome_objective_eq_valueAt,
  AugmentedLagrangian.penaltyAt, AugmentedLagrangian.multiplierAt,
  AugmentedPoint.outcome_objective_eq_penaltyAt,
  AugmentedPoint.outcome_multiplierEstimate_eq_multiplierAt
-/
import CompositeModels.Proofs.NearestPoint
import CompositeModels.Proofs.Slacks

namespace CompositeModels

section

variable {α : Type}

/-- These are the penalty parameters and the multipliers in force. -/
structure AugmentedLagrangian.InForce (node : AugmentedLagrangian α) (store : Store α)
    (mu y : List α) : Prop where
  mu : (node.penalty store).mu = .vector mu
  y : (node.penalty store).y = .vector y

/-- The data in force are kept in the table of penalty data. -/
theorem AugmentedLagrangian.penalty_congr {node : AugmentedLagrangian α} {store later : Store α}
    (same : later.penalties = store.penalties) : node.penalty later = node.penalty store := by
  rw [penalty, same]
  rfl

theorem AugmentedLagrangian.InForce.congr {node : AugmentedLagrangian α} {store later : Store α}
    {mu y : List α} (inForce : node.InForce store mu y)
    (same : node.penalty later = node.penalty store) : node.InForce later mu y := by
  constructor
  · rw [same, inForce.mu]
  · rw [same, inForce.y]

variable [Elementary α]

theorem AugmentedLagrangian.InForce.of_penalty {node : AugmentedLagrangian α} {store : Store α}
    {mu y : List α} (penalty : node.penalty store = .ofVectors (.vector mu) (.vector y)) :
    node.InForce store mu y := by
  constructor
  · rw [penalty]
    rfl
  · rw [penalty]
    rfl

/-- Where an augmented Lagrangian can be built, it comes with its data in force and leaves those of the
other models alone. -/
theorem Session.Reachable.exists_augmented {session : Session α} (reachable : session.Reachable)
    {base : Model α} (known : base ∈ session.models) {mu y : List α} {name : Option String}
    {ownsBase : Bool} {template : AugmentedLagrangian α}
    (isOf : template.IsOf base.header (.vector mu) (.vector y) name ownsBase) :
    ∃ (node : AugmentedLagrangian α) (later : Session α), later.Reachable ∧
      later.models = .augmentedLagrangian node base :: session.models ∧
      later.store.penalties = session.store.penalties ∧ node.InForce later.store mu y := by
  obtain ⟨node, events, run, _, serial, initial⟩ :=
    AugmentedLagrangian.run_build isOf isOf.admissible session.store
  have admits : session.Admits (.build (.augmented base (.vector mu) (.vector y) name ownsBase)) :=
    ⟨trivial, fun _ same => Option.some.inj same ▸ known, trivial⟩
  have penalty : node.penalty session.store = .ofVectors (.vector mu) (.vector y) := by
    rw [← initial]
    exact reachable.sound.ready.penaltyIn_new serial
  exact ⟨node, _, reachable.build admits (run_bind_of_ok run), rfl, rfl, .of_penalty penalty⟩

/-- An augmented Lagrangian of a session with the data in force, and a point of its base. -/
structure AugmentedPoint (session : Session α) (node : AugmentedLagrangian α) (base : Model α)
    (mu y x : List α) : Prop where
  sound : session.Sound
  member : .augmentedLagrangian node base ∈ session.models
  inForce : node.InForce session.store mu y
  lengthX : x.length = base.header.nvar

namespace AugmentedPoint

variable {session : Session α} {node : AugmentedLagrangian α} {base : Model α} {mu y x : List α}
  (point : AugmentedPoint session node base mu y x)
include point

theorem baseMember : base ∈ session.models :=
  point.sound.family.bases point.member rfl

theorem nvar : node.header.nvar = base.header.nvar :=
  (point.sound.family.regular point.member).1

theorem fits : (node.penalty session.store).Fits base.header.ncon :=
  point.sound.ready.fits point.member

theorem lengthY : y.length = base.header.ncon := by
  have shape := point.fits.y
  rw [point.inForce.y] at shape
  exact List.head_eq_of_cons_eq shape

theorem positive : ∀ m ∈ mu, 0 < m := by
  have positive := point.fits.positive
  rw [point.inForce.mu] at positive
  exact positive

theorem shift : (node.penalty session.store).shift.entries = Vec.mul mu y := by
  rw [point.fits.shift, point.inForce.mu, point.inForce.y]
  rfl

theorem offset : (node.penalty session.store).offset =
    Scalar.half * Vec.total (Vec.mul (Vec.mul mu y) y) := by
  rw [point.fits.offset, point.shift, point.inForce.y]
  rfl

/-- The penalty term and the multiplier estimate, with the data in force written out. -/
theorem penaltyMeaning (restriction : ConstraintMeaning α) (values : List α) :
    AugmentedLagrangian.penaltyMeaning (node.penaltyIn session.store.penalties) restriction values =
      (do
        let shifted := Vec.add values (Vec.mul mu y)
        let projected ← restriction.projectAt (.vector shifted) none
        let residual := Vec.sub shifted projected
        return (Scalar.half * Vec.dot residual (Vec.div residual mu) -
          Scalar.half * Vec.total (Vec.mul (Vec.mul mu y) y), Vec.div residual mu)) := by
  show AugmentedLagrangian.penaltyMeaning (node.penalty session.store) restriction values = _
  unfold AugmentedLagrangian.penaltyMeaning
  rw [point.shift, point.offset, point.inForce.mu]
  rfl

/-- The multiplier estimate is `(w - z) / mu`. -/
theorem outcome_multiplierEstimate :
    (node.multiplierEstimate base.oracle (.vector x) none).outcome session.store =
      (do
        let values ← (base.oracle.constraints (.vector x) none).outcome session.store
        let shifted := Vec.add values (Vec.mul mu y)
        let projected ← (base.oracle.project (.vector shifted) none).outcome session.store
        return Vec.div (Vec.sub shifted projected) mu) := by
  have length : x.length = node.header.nvar := point.lengthX.trans point.nvar.symm
  rw [point.sound.outcome_multiplierEstimate point.member,
    point.sound.outcome_constraints point.baseMember]
  simp only [point.sound.outcome_project point.baseMember, AugmentedLagrangian.estimateAt,
    Tensor.shape_vector, Tensor.entries_vector, length, Oracle.shape_buffer_none, checkVectors_self,
    AugmentedLagrangian.estimateMeaning, point.penaltyMeaning, bind_assoc, pure_bind]
  rfl

/-- The objective is that of the base and the penalty term. -/
theorem outcome_objective (repeatable : base.Repeatable) :
    ((Model.augmentedLagrangian node base).oracle.objective (.vector x)).outcome session.store =
      (do
        let value ← (base.oracle.objective (.vector x)).outcome session.store
        let values ← (base.oracle.constraints (.vector x) none).outcome session.store
        let shifted := Vec.add values (Vec.mul mu y)
        let projected ← (base.oracle.project (.vector shifted) none).outcome session.store
        let residual := Vec.sub shifted projected
        return value + (Scalar.half * Vec.dot residual (Vec.div residual mu) -
          Scalar.half * Vec.total (Vec.mul (Vec.mul mu y) y))) := by
  have length : x.length = node.header.nvar := point.lengthX.trans point.nvar.symm
  rw [point.sound.outcome_objective point.member repeatable,
    point.sound.outcome_objective point.baseMember repeatable,
    point.sound.outcome_constraints point.baseMember, SmoothMeaning.objectiveAt_vector length]
  have baseLength : x.length = (base.smoothMeaning session.store.penalties).nvar := by
    rw [Model.nvar_smoothMeaning, point.lengthX]
  have nvar : base.constraintMeaning.nvar = (base.smoothMeaning session.store.penalties).nvar := by
    rw [Model.nvar_constraintMeaning, Model.nvar_smoothMeaning]
  simp only [Model.smoothMeaning, AugmentedLagrangian.smoothMeaning, point.penaltyMeaning,
    SmoothMeaning.objectiveConstraintsAt_vector baseLength nvar,
    point.sound.outcome_project point.baseMember, bind_assoc, pure_bind]

/-- The gradient is that of the base plus the transposed Jacobian times the multiplier estimate. -/
theorem outcome_gradient (repeatable : base.Repeatable) :
    ((Model.augmentedLagrangian node base).oracle.gradient (.vector x) none).outcome session.store =
      (do
        let estimate ←
          (node.multiplierEstimate base.oracle (.vector x) none).outcome session.store
        let slope ← (base.oracle.gradient (.vector x) none).outcome session.store
        let correction ←
          (base.oracle.adjointProduct (.vector x) (.vector estimate) none).outcome session.store
        return Vec.add slope correction) := by
  have length : x.length = node.header.nvar := point.lengthX.trans point.nvar.symm
  rw [point.sound.outcome_gradient point.member repeatable, point.outcome_multiplierEstimate,
    point.sound.outcome_gradient point.baseMember repeatable,
    point.sound.outcome_constraints point.baseMember, SmoothMeaning.gradientAt_vector length]
  simp only [Model.smoothMeaning, AugmentedLagrangian.smoothMeaning, point.penaltyMeaning,
    point.sound.outcome_project point.baseMember,
    point.sound.outcome_adjointProduct point.baseMember, bind_assoc, pure_bind]

/-- The proximable term is that of the base. -/
theorem outcome_proximal {v : List α} (length : v.length = base.header.nvar) {step : α}
    (positive : 0 < step) :
    ((Model.augmentedLagrangian node base).oracle.proximal (.vector v) step none).outcome
        session.store =
      (base.oracle.proximal (.vector v) step none).outcome session.store := by
  rw [point.sound.outcome_proximal point.member, point.sound.outcome_proximal point.baseMember,
    TermMeaning.proximalAt_vector positive (length.trans point.nvar.symm)]
  rfl

end AugmentedPoint

end

/-! ### Exact values -/

section

variable {n : ℕ} {session : Session ℝ} {base : Model ℝ} {mu y c : Fin n → ℝ} {x : List ℝ} {f : ℝ}

/-- The augmented Lagrangian of the values `f` and `c`, with `s` in place of the projection. -/
noncomputable def AugmentedLagrangian.valueAt (f : ℝ) (c mu y s : Fin n → ℝ) : ℝ :=
  f + (1 / 2 * scaledSquaredDistance mu (fun i => c i + mu i * y i) s -
    1 / 2 * ∑ i, mu i * y i ^ 2)

/-- The penalty term at the constraint values `u`, for the projection `P`. -/
noncomputable def AugmentedLagrangian.penaltyAt (P : (Fin n → ℝ) → Fin n → ℝ) (mu y u : Fin n → ℝ) :
    ℝ :=
  1 / 2 * scaledSquaredDistance mu (fun i => u i + mu i * y i) (P fun i => u i + mu i * y i) -
    1 / 2 * ∑ i, mu i * y i ^ 2

/-- The multiplier estimate at the constraint values `u`, for the projection `P`. -/
noncomputable def AugmentedLagrangian.multiplierAt (P : (Fin n → ℝ) → Fin n → ℝ)
    (mu y u : Fin n → ℝ) (i : Fin n) : ℝ :=
  (u i + mu i * y i - P (fun j => u j + mu j * y j) i) / mu i

/-- Moving `c` or `s` makes no difference. -/
theorem AugmentedLagrangian.valueAt_sub (f : ℝ) (c mu y s : Fin n → ℝ) :
    valueAt f (fun i => c i - s i) mu y (fun _ => 0) = valueAt f c mu y s := by
  simp only [valueAt, scaledSquaredDistance]
  congr 3
  apply Finset.sum_congr rfl
  intro i _
  ring

/-- The value of the augmented Lagrangian is that of the formula at the projection. -/
theorem AugmentedPoint.outcome_objective_eq_valueAt {node : AugmentedLagrangian ℝ}
    (point : AugmentedPoint session node base (List.ofFn mu) (List.ofFn y) x) {z : Fin n → ℝ}
    (objective : (base.oracle.objective (.vector x)).outcome session.store = .ok f)
    (constraints : (base.oracle.constraints (.vector x) none).outcome session.store =
      .ok (List.ofFn c))
    (project : (base.oracle.project (.vector (List.ofFn fun i => c i + mu i * y i)) none).outcome
      session.store = .ok (List.ofFn z)) :
    ((Model.augmentedLagrangian node base).oracle.objective (.vector x)).outcome session.store =
      .ok (AugmentedLagrangian.valueAt f c mu y z) := by
  rw [point.outcome_objective base.repeatable, objective, constraints]
  simp only [ok_bind, Vec.mul_ofFn, Vec.add_ofFn, project, Vec.sub_ofFn, Vec.div_ofFn, Vec.dot_ofFn,
    Vec.total_ofFn, Scalar.half_real]
  have distance : ∑ i, (c i + mu i * y i - z i) * ((c i + mu i * y i - z i) / mu i) =
      scaledSquaredDistance mu (fun i => c i + mu i * y i) z := by
    apply Finset.sum_congr rfl
    intro i _
    ring
  have offset : ∑ i, mu i * y i * y i = ∑ i, mu i * y i ^ 2 := by
    apply Finset.sum_congr rfl
    intro i _
    ring
  rw [distance, offset]
  rfl

/-- The value for the slack reformulation is that of the formula at the slacks. -/
theorem SlackPoint.outcome_objective_eq_valueAt {wrapper : Wrapper ℝ} {s : Fin n → ℝ}
    (slackPoint : SlackPoint session wrapper base x (List.ofFn s)) {node : AugmentedLagrangian ℝ}
    (point : AugmentedPoint session node (.slack wrapper base) (List.ofFn mu) (List.ofFn y)
      (x ++ List.ofFn s))
    (objective : (base.oracle.objective (.vector x)).outcome session.store = .ok f)
    (constraints : (base.oracle.constraints (.vector x) none).outcome session.store =
      .ok (List.ofFn c)) :
    ((Model.augmentedLagrangian node (.slack wrapper base)).oracle.objective
      (.vector (x ++ List.ofFn s))).outcome session.store =
        .ok (AugmentedLagrangian.valueAt f c mu y s) := by
  rw [← AugmentedLagrangian.valueAt_sub]
  apply point.outcome_objective_eq_valueAt
  · rw [slackPoint.outcome_objective base.repeatable, objective]
  · rw [slackPoint.outcome_constraints, constraints]
    rw [ok_bind, Vec.sub_ofFn]
    rfl
  · have length : (List.ofFn fun i => c i - s i + mu i * y i).length = base.header.ncon := by
      rw [List.length_ofFn, ← slackPoint.lengthS, List.length_ofFn]
    rw [slackPoint.outcome_project length, Vec.zeroed_ofFn]

end

/-! ### Known projections -/

namespace AugmentedPoint

variable {session : Session ℝ} {node : AugmentedLagrangian ℝ} {base : Model ℝ} {x : List ℝ}
  {mu y c : Fin base.header.ncon → ℝ} {P : (Fin base.header.ncon → ℝ) → Fin base.header.ncon → ℝ}
  (point : AugmentedPoint session node base (List.ofFn mu) (List.ofFn y) x)
  (projects : base.ProjectsAs session.store P)
  (constraints : (base.oracle.constraints (.vector x) none).outcome session.store =
    .ok (List.ofFn c))
include point projects constraints

/-- The objective is that of the base and the penalty term. -/
theorem outcome_objective_eq_penaltyAt :
    ((Model.augmentedLagrangian node base).oracle.objective (.vector x)).outcome session.store =
      (do
        let value ← (base.oracle.objective (.vector x)).outcome session.store
        return value + AugmentedLagrangian.penaltyAt P mu y c) := by
  cases objective : (base.oracle.objective (.vector x)).outcome session.store with
  | error cause =>
      rw [point.outcome_objective base.repeatable, objective]
      rfl
  | ok f => exact point.outcome_objective_eq_valueAt objective constraints (projects _)

/-- The multiplier estimate is the residual of the shifted values, each entry divided by its
parameter. -/
theorem outcome_multiplierEstimate_eq_multiplierAt :
    (node.multiplierEstimate base.oracle (.vector x) none).outcome session.store =
      .ok (List.ofFn (AugmentedLagrangian.multiplierAt P mu y c)) := by
  have projected := projects fun i => c i + mu i * y i
  rw [point.outcome_multiplierEstimate, constraints]
  simp only [ok_bind, Vec.mul_ofFn, Vec.add_ofFn, projected, Vec.sub_ofFn, Vec.div_ofFn]
  rfl

end AugmentedPoint

/-! ### A session with a ball

The objective is `f(x) = x`, the constraint map is `c(x) = (3 + x, 4 + 4 x)`, and its values are wanted in
the ball of radius five. At zero they lie on its boundary. -/

namespace Session

/-- The objective and the constraint map, without a set. -/
noncomputable def ballLeaf : Model ℝ :=
  .expression ⟨⟨1, 2, [0], [0, 0], true, "ball"⟩, .entry 0,
    [.binary .add (.constant 3) (.entry 0),
      .binary .add (.constant 4) (.binary .mul (.constant 4) (.entry 0))]⟩

/-- The problem with the ball, and with a multiple of the absolute value as its term. -/
noncomputable def ball : Model ℝ :=
  .tailored ⟨⟨0, ⟨1, 2, [0], [0, 0], true, "ball"⟩, true⟩, some (.ball 5), some (.absoluteSum 20)⟩
    ballLeaf

/-- What the slack reformulation of the problem adds to it. -/
noncomputable def ballSlack : Wrapper ℝ :=
  ⟨1, ⟨3, 2, [0, 0, 0], [0, 0], true, "ball-slack"⟩, true⟩

/-- The session in which the three models were built. -/
noncomputable def balled : Session ℝ := ({} : Session ℝ).run
  [.build (.ofExpressions (.entry 0) (.vector [0]) (some {
      expressions := [.binary .add (.constant 3) (.entry 0),
        .binary .add (.constant 4) (.binary .mul (.constant 4) (.entry 0))] }) none true "ball"),
    .build (.tailor ballLeaf {} (some (.ball 5)) (some (.absoluteSum 20)) true),
    .build (.withSlacks ball none true)]

theorem models_balled : balled.models = [.slack ballSlack ball, ball, ballLeaf] := rfl

theorem ballSlack_mem_balled : .slack ballSlack ball ∈ balled.models := .head _

theorem ball_mem_balled : ball ∈ balled.models := .tail _ (.head _)

theorem ballLeaf_mem_balled : ballLeaf ∈ balled.models := .tail _ (.tail _ (.head _))

theorem reachable_balled : balled.Reachable := by
  apply Reachable.run .start
  refine ⟨⟨?_, ?_, trivial⟩, ⟨⟨?_, ?_⟩, ?_, trivial⟩, ⟨trivial, ?_, trivial⟩, trivial⟩
  · intro constraintMap same
    cases same
    exact ConstraintMap.consistent_of_undeclared rfl
  · intro base same
    cases same
  · intro set same
    cases same
    exact ConstraintSet.keepsLength_ball 5
  · intro g same
    cases same
    exact ProximableTerm.keepsLength_absoluteSum 20
  · intro base same
    cases same
    exact .head _
  · intro base same
    cases same
    exact .head _

theorem admissible_pair {m₁ m₂ : ℝ} (first : 0 < m₁) (second : 0 < m₂) (y₁ y₂ : ℝ) :
    Penalty.Admissible 2 (.vector [m₁, m₂]) (.vector [y₁, y₂]) := by
  refine ⟨rfl, rfl, ?_⟩
  simp [Vec.allPositive, first, second]

/-- An augmented Lagrangian of the problem can be built with any admissible data. -/
theorem exists_augmented_ball {m₁ m₂ : ℝ} (first : 0 < m₁) (second : 0 < m₂) (y₁ y₂ : ℝ) :
    ∃ (node : AugmentedLagrangian ℝ) (session : Session ℝ), session.Reachable ∧
      session.models = .augmentedLagrangian node ball :: balled.models ∧
      session.store.penalties = balled.store.penalties ∧
      node.InForce session.store [m₁, m₂] [y₁, y₂] := by
  have known := ball_mem_balled
  have isOf : AugmentedLagrangian.IsOf ⟨⟨0, ⟨1, 0, [0], [], true, "ball-al"⟩, true⟩,
      .ofVectors (.vector [m₁, m₂]) (.vector [y₁, y₂])⟩ ball.header (.vector [m₁, m₂])
      (.vector [y₁, y₂]) none true := {
    constrained := rfl
    admissible := admissible_pair first second y₁ y₂
    header := rfl
    ownsBase := rfl
    penalty := rfl }
  exact reachable_balled.exists_augmented known isOf

section

variable {session : Session ℝ} (sound : session.Sound) (member : ball ∈ session.models)
include sound member

theorem Sound.outcome_objective_ball (x : ℝ) :
    (ball.oracle.objective (.vector [x])).outcome session.store = .ok x := by
  rw [sound.outcome_objective member ball.repeatable]
  rfl

theorem Sound.outcome_constraints_ball (x : ℝ) :
    (ball.oracle.constraints (.vector [x]) none).outcome session.store =
      .ok [3 + x, 4 + 4 * x] := by
  rw [sound.outcome_constraints member]
  rfl

/-- Outside of the ball, values are moved along their ray. -/
theorem Sound.outcome_project_ball {a b norm : ℝ} (square : a * a + b * b = norm ^ 2)
    (outside : 5 < norm) :
    (ball.oracle.project (.vector [a, b]) none).outcome session.store =
      .ok [a * (5 / norm), b * (5 / norm)] := by
  have normEq : Vec.norm [a, b] = norm := by
    show √((0 : ℝ) + a * a + b * b) = norm
    rw [zero_add, square, Real.sqrt_sq (by linarith)]
  rw [sound.outcome_project member]
  show Except.ok (if Vec.norm [a, b] ≤ 5 then [a, b] else
    Vec.scale (5 / Vec.norm [a, b]) [a, b]) = _
  rw [normEq, if_neg (not_le.2 outside)]
  rfl

/-- The problem projects onto the ball. -/
theorem Sound.projectsOnto_ball : ball.ProjectsOnto session.store (centeredBall 2 5) :=
  sound.projectsOnto_centeredBall member (Nat.succ_pos 1) (by norm_num) rfl

end

end Session

end CompositeModels
