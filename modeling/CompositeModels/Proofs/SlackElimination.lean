/-
Module: CompositeModels.Proofs.SlackElimination
Purpose: When the augmented Lagrangian is the least value of the augmented Lagrangian of the slack
  reformulation over all slacks in the set. Both have the same value at the projection. That value is
  the least exactly if the multiplier estimate is normal to the set at the projection. The projection is
  Euclidean and the penalty scales each squared difference on its own, so this holds for every choice of
  penalty parameters exactly if membership in the set is decided entry by entry.
Main exports: Model.smoothMeaning_set, Session.Sound.outcome_objective_update,
  AugmentedLagrangian.valueAt_le_iff, AugmentedLagrangian.slack_elimination,
  AugmentedLagrangian.slack_not_eliminated_ball
-/
import CompositeModels.Proofs.Lagrangian

namespace CompositeModels

/-! ### Updates of other models -/

section

variable {α : Type}

/-- How many reformulations a model consists of. -/
def Model.layers : Model α → Nat
  | .backend _ | .expression _ => 0
  | .slack _ base | .proximalPoint _ base | .augmentedLagrangian _ base | .feasibility _ base
  | .tailored _ base => base.layers + 1

variable [Elementary α]

/-- The objective of a model does not depend on the penalty data of a model that is not below it. -/
theorem Model.smoothMeaning_set {models : List (Model α)} (family : Family models)
    {node : AugmentedLagrangian α} {base : Model α}
    (member : .augmentedLagrangian node base ∈ models) (penalties : Table (Penalty α))
    (penalty : Penalty α) {model : Model α} (known : model ∈ models)
    (below : model.layers < (Model.augmentedLagrangian node base).layers) :
    model.smoothMeaning (penalties.set node.serial penalty) = model.smoothMeaning penalties := by
  induction model with
  | backend leaf => rfl
  | expression leaf => rfl
  | proximalPoint other inner => rfl
  | feasibility other inner => rfl
  | slack other inner ih =>
      have smaller : inner.layers < (Model.slack other inner).layers := Nat.lt_succ_self _
      simp only [smoothMeaning, ih (family.bases known rfl) (smaller.trans below)]
  | tailored other inner ih =>
      have smaller : inner.layers < (Model.tailored other inner).layers := Nat.lt_succ_self _
      simp only [smoothMeaning, ih (family.bases known rfl) (smaller.trans below)]
  | augmentedLagrangian other inner ih =>
      have smaller : inner.layers < (Model.augmentedLagrangian other inner).layers := Nat.lt_succ_self _
      have different : other.serial ≠ node.serial := by
        intro same
        rw [family.distinct known member (congrArg some same) rfl] at below
        exact lt_irrefl _ below
      have inForce : other.penaltyIn (penalties.set node.serial penalty) = other.penaltyIn penalties := by
        rw [AugmentedLagrangian.penaltyIn, Table.get?_set_of_ne _ _ different]
        rfl
      simp only [smoothMeaning, inForce, ih (family.bases known rfl) (smaller.trans below)]

namespace Session

variable {session : Session α} {node : AugmentedLagrangian α} {base : Model α} {mu y : List α}

/-- An update with admissible data brings them into force. -/
theorem inForce_perform_update
    (admissible : Penalty.Admissible base.header.ncon (.vector mu) (.vector y)) :
    node.InForce (session.perform (.update node base (.vector mu) (.vector y))).store mu y := by
  apply AugmentedLagrangian.InForce.of_penalty
  rw [AugmentedLagrangian.penalty, penalties_perform_update admissible, Table.get?_set_self]
  rfl

/-- It leaves those of other models in force. -/
theorem inForce_perform_update_of_ne
    (admissible : Penalty.Admissible base.header.ncon (.vector mu) (.vector y))
    {other : AugmentedLagrangian α} (different : other.serial ≠ node.serial) {m z : List α}
    (inForce : other.InForce session.store m z) :
    other.InForce (session.perform (.update node base (.vector mu) (.vector y))).store m z := by
  apply inForce.congr
  rw [AugmentedLagrangian.penalty, penalties_perform_update admissible,
    Table.get?_set_of_ne _ _ different]
  rfl

/-- It leaves the objective of models that do not contain the one that was updated. -/
theorem Sound.outcome_objective_update (sound : session.Sound)
    (member : .augmentedLagrangian node base ∈ session.models)
    (admissible : Penalty.Admissible base.header.ncon (.vector mu) (.vector y)) {model : Model α}
    (known : model ∈ session.models)
    (below : model.layers < (Model.augmentedLagrangian node base).layers)
    (repeatable : model.Repeatable) (x : Tensor α) :
    (model.oracle.objective x).outcome
        (session.perform (.update node base (.vector mu) (.vector y))).store =
      (model.oracle.objective x).outcome session.store := by
  have admits : session.Admits (.update node base (.vector mu) (.vector y)) := member
  rw [(sound.perform admits).outcome_objective (mem_perform known _) repeatable,
    sound.outcome_objective known repeatable, penalties_perform_update admissible,
    Model.smoothMeaning_set sound.family member _ _ known below]

end Session

end

/-! ### Elimination -/

section

variable {n : ℕ} {S : Set (Fin n → ℝ)} {f : ℝ} {c mu y z : Fin n → ℝ}

/-- The formula is least at `z` exactly if the multiplier estimate there is normal to the set. -/
theorem AugmentedLagrangian.valueAt_le_iff (convex : Convex ℝ S) (positive : ∀ i, 0 < mu i)
    (member : z ∈ S) :
    (∀ s ∈ S, valueAt f c mu y z ≤ valueAt f c mu y s) ↔
      IsNormal S z fun i => (c i + mu i * y i - z i) / mu i := by
  rw [← scaledSquaredDistance_le_iff_isNormal convex positive member]
  unfold valueAt
  constructor
  · intro least s hs
    have := least s hs
    linarith
  · intro least s hs
    have := least s hs
    linarith

/-- It is least at the nearest point if one number scales all entries, or if membership is decided entry
by entry. -/
theorem AugmentedLagrangian.valueAt_le_of_isNearest (convex : Convex ℝ S)
    (positive : ∀ i, 0 < mu i) (nearest : IsNearest S (fun i => c i + mu i * y i) z)
    (separates : (∀ i j, mu i = mu j) ∨ Entrywise S) :
    ∀ s ∈ S, valueAt f c mu y z ≤ valueAt f c mu y s := by
  rcases (isNearest_iff_isNormal convex).1 nearest with ⟨member, normal⟩
  rw [valueAt_le_iff convex positive member]
  rcases separates with uniform | entrywise
  · intro s hs
    rcases isEmpty_or_nonempty (Fin n) with empty | ⟨⟨i⟩⟩
    · simp
    · have scaled := isNormal_div normal (positive i) s hs
      simpa only [fun j => uniform j i] using scaled
  · exact isNormal_div_of_entrywise entrywise member normal positive

end

/-- A base with its augmented Lagrangian, the augmented Lagrangian of its slack reformulation, and the
values of the base at a point. -/
structure Elimination (session : Session ℝ) (base : Model ℝ) (node slackNode : AugmentedLagrangian ℝ)
    (wrapper : Wrapper ℝ) (x : List ℝ) (f : ℝ) (c : Fin base.header.ncon → ℝ) : Prop where
  sound : session.Sound
  member : .augmentedLagrangian node base ∈ session.models
  slackMember : .augmentedLagrangian slackNode (.slack wrapper base) ∈ session.models
  constrained : 0 < base.header.ncon
  objective : (base.oracle.objective (.vector x)).outcome session.store = .ok f
  constraints : (base.oracle.constraints (.vector x) none).outcome session.store = .ok (List.ofFn c)

namespace Elimination

variable {session : Session ℝ} {base : Model ℝ} {node slackNode : AugmentedLagrangian ℝ}
  {wrapper : Wrapper ℝ} {x : List ℝ} {f : ℝ} {c mu y : Fin base.header.ncon → ℝ}
  (elimination : Elimination session base node slackNode wrapper x f c)
include elimination

theorem wrapperMember : .slack wrapper base ∈ session.models :=
  elimination.sound.family.bases elimination.slackMember rfl

theorem baseMember : base ∈ session.models :=
  elimination.sound.family.bases elimination.member rfl

theorem lengthX : x.length = base.header.nvar :=
  elimination.sound.length_of_objective elimination.baseMember base.repeatable elimination.objective

theorem slackPoint (s : Fin base.header.ncon → ℝ) :
    SlackPoint session wrapper base x (List.ofFn s) where
  sound := elimination.sound
  member := elimination.wrapperMember
  constrained := elimination.constrained
  lengthX := elimination.lengthX
  lengthS := List.length_ofFn

theorem outcome_objective (inForce : node.InForce session.store (List.ofFn mu) (List.ofFn y))
    {z : Fin base.header.ncon → ℝ}
    (project : (base.oracle.project (.vector (List.ofFn fun i => c i + mu i * y i)) none).outcome
      session.store = .ok (List.ofFn z)) :
    ((Model.augmentedLagrangian node base).oracle.objective (.vector x)).outcome session.store =
      .ok (AugmentedLagrangian.valueAt f c mu y z) := by
  have point : AugmentedPoint session node base (List.ofFn mu) (List.ofFn y) x :=
    ⟨elimination.sound, elimination.member, inForce, elimination.lengthX⟩
  exact point.outcome_objective_eq_valueAt elimination.objective elimination.constraints project

theorem outcome_objective_slack
    (inForce : slackNode.InForce session.store (List.ofFn mu) (List.ofFn y))
    (s : Fin base.header.ncon → ℝ) :
    ((Model.augmentedLagrangian slackNode (.slack wrapper base)).oracle.objective
      (.vector (x ++ List.ofFn s))).outcome session.store =
        .ok (AugmentedLagrangian.valueAt f c mu y s) := by
  have slackPoint := elimination.slackPoint s
  have point : AugmentedPoint session slackNode (.slack wrapper base) (List.ofFn mu) (List.ofFn y)
      (x ++ List.ofFn s) :=
    ⟨elimination.sound, elimination.slackMember, inForce, slackPoint.length⟩
  exact slackPoint.outcome_objective_eq_valueAt point elimination.objective elimination.constraints

theorem positive (inForce : node.InForce session.store (List.ofFn mu) (List.ofFn y)) (i) :
    0 < mu i := by
  have point : AugmentedPoint session node base (List.ofFn mu) (List.ofFn y) x :=
    ⟨elimination.sound, elimination.member, inForce, elimination.lengthX⟩
  exact point.positive (mu i) (List.mem_ofFn.2 ⟨i, rfl⟩)

/-- The two augmented Lagrangians are different models. -/
theorem different : node.serial ≠ slackNode.serial := by
  intro same
  have models : Model.augmentedLagrangian node base =
      .augmentedLagrangian slackNode (.slack wrapper base) :=
    elimination.sound.family.distinct elimination.member elimination.slackMember
      (congrArg some same) rfl
  have layers := congrArg Model.layers (Model.augmentedLagrangian.inj models).2
  exact absurd layers (Nat.ne_of_lt (Nat.lt_succ_self _))

end Elimination

/-- Hand the same penalty data to both augmented Lagrangians. -/
noncomputable def Session.updateBoth (session : Session ℝ) (node : AugmentedLagrangian ℝ)
    (base : Model ℝ) (slackNode : AugmentedLagrangian ℝ) (wrapper : Wrapper ℝ) (mu y : List ℝ) :
    Session ℝ :=
  (session.perform (.update node base (.vector mu) (.vector y))).perform
    (.update slackNode (.slack wrapper base) (.vector mu) (.vector y))

theorem Penalty.admissible_ofFn {n : ℕ} {mu : Fin n → ℝ} (positive : ∀ i, 0 < mu i) (y : Fin n → ℝ) :
    Admissible n (.vector (List.ofFn mu)) (.vector (List.ofFn y)) := by
  refine ⟨by simp, by simp, ?_⟩
  rw [Vec.allPositive, List.all_eq_true]
  intro m member
  obtain ⟨i, rfl⟩ := List.mem_ofFn.1 member
  exact decide_eq_true (positive i)

namespace Elimination

variable {session : Session ℝ} {base : Model ℝ} {node slackNode : AugmentedLagrangian ℝ}
  {wrapper : Wrapper ℝ} {x : List ℝ} {f : ℝ} {c mu : Fin base.header.ncon → ℝ}
  (elimination : Elimination session base node slackNode wrapper x f c)
include elimination

/-- After the updates the data are in force for both, and the base answers as before. -/
theorem updateBoth (positive : ∀ i, 0 < mu i) (y : Fin base.header.ncon → ℝ) :
    let later := session.updateBoth node base slackNode wrapper (List.ofFn mu) (List.ofFn y)
    Elimination later base node slackNode wrapper x f c ∧
      node.InForce later.store (List.ofFn mu) (List.ofFn y) ∧
      slackNode.InForce later.store (List.ofFn mu) (List.ofFn y) ∧
      ∀ v, (base.oracle.project v none).outcome later.store =
        (base.oracle.project v none).outcome session.store := by
  intro later
  have admissible := Penalty.admissible_ofFn positive y
  have slackNcon : (Model.slack wrapper base).header.ncon = base.header.ncon :=
    (elimination.sound.family.regular elimination.wrapperMember).2
  have slackAdmissible : Penalty.Admissible (Model.slack wrapper base).header.ncon
      (.vector (List.ofFn mu)) (.vector (List.ofFn y)) := by
    rw [slackNcon]
    exact admissible
  have admits : session.Admits (.update node base (.vector (List.ofFn mu)) (.vector (List.ofFn y))) :=
    elimination.member
  have between := elimination.sound.perform admits
  have slackAdmits : (session.perform (.update node base (.vector (List.ofFn mu))
      (.vector (List.ofFn y)))).Admits (.update slackNode (.slack wrapper base)
        (.vector (List.ofFn mu)) (.vector (List.ofFn y))) := elimination.slackMember
  have sound : later.Sound := between.perform slackAdmits
  have known : base ∈ later.models := elimination.baseMember
  have below : base.layers < (Model.augmentedLagrangian node base).layers := Nat.lt_succ_self _
  have slackBelow : base.layers <
      (Model.augmentedLagrangian slackNode (.slack wrapper base)).layers := by
    show base.layers < base.layers + 1 + 1
    omega
  refine ⟨⟨sound, elimination.member, elimination.slackMember, elimination.constrained, ?_, ?_⟩,
    ?_, ?_, ?_⟩
  · rw [← elimination.objective]
    exact (between.outcome_objective_update elimination.slackMember slackAdmissible
      elimination.baseMember slackBelow base.repeatable _).trans
        (elimination.sound.outcome_objective_update elimination.member admissible
          elimination.baseMember below base.repeatable _)
  · rw [← elimination.constraints, sound.outcome_constraints known,
      elimination.sound.outcome_constraints elimination.baseMember]
  · exact Session.inForce_perform_update_of_ne slackAdmissible elimination.different
      (Session.inForce_perform_update admissible)
  · exact Session.inForce_perform_update slackAdmissible
  · intro v
    rw [sound.outcome_project known, elimination.sound.outcome_project elimination.baseMember]

end Elimination

/-- Let the base project onto a convex set `S`. Where the same penalty data are in force for its
augmented Lagrangian and for that of its slack reformulation, the first has the value of the second at
the projection `z` of `w = c(x) + mu * y`. This is its least value for slacks in `S` exactly if
`(w - z) / mu` is normal to `S` at `z`, as it is for equal parameters and where membership in `S` is
decided entry by entry. In all other sets, it is not the least for every choice of penalty data. -/
theorem AugmentedLagrangian.slack_elimination {session : Session ℝ} (reachable : session.Reachable)
    {base : Model ℝ} {node slackNode : AugmentedLagrangian ℝ} {wrapper : Wrapper ℝ}
    (member : .augmentedLagrangian node base ∈ session.models)
    (slackMember : .augmentedLagrangian slackNode (.slack wrapper base) ∈ session.models)
    (constrained : 0 < base.header.ncon) {S : Set (Fin base.header.ncon → ℝ)} (convex : Convex ℝ S)
    (projects : base.ProjectsOnto session.store S) {x : List ℝ} {f : ℝ}
    {c : Fin base.header.ncon → ℝ}
    (objective : (base.oracle.objective (.vector x)).outcome session.store = .ok f)
    (constraints : (base.oracle.constraints (.vector x) none).outcome session.store =
      .ok (List.ofFn c)) :
    (∀ mu y, node.InForce session.store (List.ofFn mu) (List.ofFn y) →
      slackNode.InForce session.store (List.ofFn mu) (List.ofFn y) →
      ∃ z, IsNearest S (fun i => c i + mu i * y i) z ∧
        (base.oracle.project (.vector (List.ofFn fun i => c i + mu i * y i)) none).outcome
          session.store = .ok (List.ofFn z) ∧
        ((Model.augmentedLagrangian node base).oracle.objective (.vector x)).outcome session.store =
          .ok (valueAt f c mu y z) ∧
        (∀ s, ((Model.augmentedLagrangian slackNode (.slack wrapper base)).oracle.objective
          (.vector (x ++ List.ofFn s))).outcome session.store = .ok (valueAt f c mu y s)) ∧
        ((∀ s ∈ S, valueAt f c mu y z ≤ valueAt f c mu y s) ↔
          IsNormal S z fun i => (c i + mu i * y i - z i) / mu i) ∧
        ((∀ i j, mu i = mu j) ∨ Entrywise S →
          ∀ s ∈ S, valueAt f c mu y z ≤ valueAt f c mu y s)) ∧
      ((∀ mu y : Fin base.header.ncon → ℝ, (∀ i, 0 < mu i) → ∀ s ∈ S, ∃ lagrangian slackLagrangian,
          let later := session.updateBoth node base slackNode wrapper (List.ofFn mu) (List.ofFn y)
          ((Model.augmentedLagrangian node base).oracle.objective (.vector x)).outcome later.store =
              .ok lagrangian ∧
            ((Model.augmentedLagrangian slackNode (.slack wrapper base)).oracle.objective
              (.vector (x ++ List.ofFn s))).outcome later.store = .ok slackLagrangian ∧
            lagrangian ≤ slackLagrangian) ↔
        Entrywise S) := by
  have elimination : Elimination session base node slackNode wrapper x f c :=
    ⟨reachable.sound, member, slackMember, constrained, objective, constraints⟩
  refine ⟨?_, ?_, ?_⟩
  · intro mu y inForce slackInForce
    obtain ⟨z, nearest, project⟩ := projects fun i => c i + mu i * y i
    have positive := elimination.positive inForce
    exact ⟨z, nearest, project, elimination.outcome_objective inForce project,
      elimination.outcome_objective_slack slackInForce,
      valueAt_le_iff convex positive nearest.member,
      valueAt_le_of_isNearest convex positive nearest⟩
  · intro least
    by_contra coupled
    obtain ⟨w, scales⟩ := exists_scale_of_not_entrywise coupled
    obtain ⟨z, nearest, project⟩ := projects w
    obtain ⟨mu, positive, notNormal⟩ := scales z nearest.member
    -- These multipliers shift the constraint values to `w`.
    have shifted : (fun i => c i + mu i * ((w i - c i) / mu i)) = w := by
      funext i
      rw [mul_div_cancel₀ _ (positive i).ne']
      ring
    obtain ⟨later, inForce, slackInForce, projectLater⟩ :=
      elimination.updateBoth positive fun i => (w i - c i) / mu i
    rw [← shifted] at project
    apply notNormal
    have value := later.outcome_objective inForce ((projectLater _).trans project)
    have normal : IsNormal S z fun i => (c i + mu i * ((w i - c i) / mu i) - z i) / mu i := by
      rw [← valueAt_le_iff convex positive nearest.member]
      intro s hs
      obtain ⟨lagrangian, slackLagrangian, returned, slackReturned, le⟩ := least mu _ positive s hs
      have slackValue := later.outcome_objective_slack slackInForce s
      rw [returned] at value
      rw [slackReturned] at slackValue
      cases value
      cases slackValue
      exact le
    intro s hs
    have nonpositive := normal s hs
    simpa only [congrFun shifted] using nonpositive
  · intro entrywise mu y positive s hs
    obtain ⟨later, inForce, slackInForce, projectLater⟩ := elimination.updateBoth positive y
    obtain ⟨z, nearest, project⟩ := projects fun i => c i + mu i * y i
    exact ⟨_, _, later.outcome_objective inForce ((projectLater _).trans project),
      later.outcome_objective_slack slackInForce s,
      valueAt_le_of_isNearest convex positive nearest (.inr entrywise) s hs⟩

/-- The ball problem with both augmented Lagrangians and any admissible data. -/
theorem Session.exists_elimination_ball {m₁ m₂ : ℝ} (first : 0 < m₁) (second : 0 < m₂) (y₁ y₂ : ℝ) :
    ∃ (session : Session ℝ) (node slackNode : AugmentedLagrangian ℝ), session.Reachable ∧
      .augmentedLagrangian node ball ∈ session.models ∧
      .augmentedLagrangian slackNode (.slack ballSlack ball) ∈ session.models ∧
      node.InForce session.store [m₁, m₂] [y₁, y₂] ∧
      slackNode.InForce session.store [m₁, m₂] [y₁, y₂] := by
  obtain ⟨node, between, reachable, models, _, inForce⟩ :=
    exists_augmented_ball first second y₁ y₂
  have known : .slack ballSlack ball ∈ between.models := by
    rw [models, models_balled]
    exact .tail _ (.head _)
  have isOf : AugmentedLagrangian.IsOf
      ⟨⟨0, ⟨3, 0, [0, 0, 0], [], true, "ball-slack-al"⟩, true⟩,
        .ofVectors (.vector [m₁, m₂]) (.vector [y₁, y₂])⟩ ballSlack.header (.vector [m₁, m₂])
      (.vector [y₁, y₂]) none true := {
    constrained := rfl
    admissible := admissible_pair first second y₁ y₂
    header := rfl
    ownsBase := rfl
    penalty := rfl }
  obtain ⟨slackNode, session, reachable, slackModels, penalties, slackInForce⟩ :=
    reachable.exists_augmented known isOf
  refine ⟨session, node, slackNode, reachable, ?_, ?_, ?_, slackInForce⟩
  · rw [slackModels, models]
    exact .tail _ (.head _)
  · rw [slackModels]
    exact .head _
  · exact inForce.congr (AugmentedLagrangian.penalty_congr penalties)

/-- At `x = 2` the constraint values are `(5, 12)`, of norm thirteen. -/
theorem Session.Sound.outcome_constraints_ball_two {session : Session ℝ} (sound : session.Sound)
    (member : ball ∈ session.models) :
    (ball.oracle.constraints (.vector [2]) none).outcome session.store = .ok (List.ofFn ![5, 12]) := by
  have values : [3 + (2 : ℝ), 4 + 4 * 2] = List.ofFn ![5, 12] := by norm_num
  rw [sound.outcome_constraints_ball member, values]

theorem AugmentedLagrangian.slack_elimination_ball :
    ∃ (session : Session ℝ) (node slackNode : AugmentedLagrangian ℝ) (z : Fin 2 → ℝ),
      session.Reachable ∧
      ((Model.augmentedLagrangian node Session.ball).oracle.objective (.vector [2])).outcome
        session.store = .ok (valueAt 2 ![5, 12] ![1, 1] ![0, 0] z) ∧
      (∀ s, ((Model.augmentedLagrangian slackNode
          (.slack Session.ballSlack Session.ball)).oracle.objective
            (.vector ([2] ++ List.ofFn s))).outcome session.store =
              .ok (valueAt 2 ![5, 12] ![1, 1] ![0, 0] s)) ∧
      ∀ s ∈ centeredBall 2 5,
        valueAt 2 ![5, 12] ![1, 1] ![0, 0] z ≤ valueAt 2 ![5, 12] ![1, 1] ![0, 0] s := by
  obtain ⟨session, node, slackNode, reachable, member, slackMember, inForce, slackInForce⟩ :=
    Session.exists_elimination_ball one_pos one_pos 0 0
  have known : Session.ball ∈ session.models := reachable.sound.family.bases member rfl
  obtain ⟨z, _, _, value, slackValue, _, least⟩ := (slack_elimination reachable member slackMember
    (Nat.succ_pos 1) (convex_centeredBall 5) (reachable.sound.projectsOnto_ball known)
    (reachable.sound.outcome_objective_ball known 2)
    (reachable.sound.outcome_constraints_ball_two known)).1 ![1, 1] ![0, 0] inForce slackInForce
  refine ⟨session, node, slackNode, z, reachable, value, slackValue, least (.inl ?_)⟩
  intro i j
  fin_cases i <;> fin_cases j <;> rfl

/-- With the parameters `(1, 12)` and no multipliers, the slacks `(4, 3)` in the ball have a smaller value
than the projection `(25 / 13, 60 / 13)`. -/
theorem AugmentedLagrangian.slack_not_eliminated_ball :
    ∃ (session : Session ℝ) (node slackNode : AugmentedLagrangian ℝ), session.Reachable ∧
      .augmentedLagrangian node Session.ball ∈ session.models ∧
      .augmentedLagrangian slackNode (.slack Session.ballSlack Session.ball) ∈ session.models ∧
      node.InForce session.store [1, 12] [0, 0] ∧ slackNode.InForce session.store [1, 12] [0, 0] ∧
      Session.ball.ProjectsOnto session.store (centeredBall 2 5) ∧
      (centeredBall 2 5).Nonempty ∧ IsClosed (centeredBall 2 5) ∧ Convex ℝ (centeredBall 2 5) ∧
      ![4, 3] ∈ centeredBall 2 5 ∧
      ((Model.augmentedLagrangian node Session.ball).oracle.objective (.vector [2])).outcome
        session.store = .ok (1522 / 169) ∧
      ((Model.augmentedLagrangian slackNode (.slack Session.ballSlack Session.ball)).oracle.objective
        (.vector [2, 4, 3])).outcome session.store = .ok (47 / 8) ∧
      ¬ ((1522 : ℝ) / 169 ≤ 47 / 8) := by
  obtain ⟨session, node, slackNode, reachable, member, slackMember, inForce, slackInForce⟩ :=
    Session.exists_elimination_ball one_pos (show (0 : ℝ) < 12 by norm_num) 0 0
  have sound := reachable.sound
  have known : Session.ball ∈ session.models := sound.family.bases member rfl
  have inside : ![4, 3] ∈ centeredBall 2 5 := by
    show ∑ i : Fin 2, ![(4 : ℝ), 3] i ^ 2 ≤ 5 ^ 2
    rw [Fin.sum_univ_two]
    norm_num
  have elimination : Elimination session Session.ball node slackNode Session.ballSlack [2] 2 ![5, 12] :=
    ⟨sound, member, slackMember, Nat.succ_pos 1, sound.outcome_objective_ball known 2,
      sound.outcome_constraints_ball_two known⟩
  have projected : (Session.ball.oracle.project (.vector (List.ofFn fun i : Fin 2 =>
      ![(5 : ℝ), 12] i + ![(1 : ℝ), 12] i * ![(0 : ℝ), 0] i)) none).outcome session.store =
        .ok (List.ofFn ![25 / 13, 60 / 13]) := by
    have square : (5 : ℝ) * 5 + 12 * 12 = 13 ^ 2 := by norm_num
    have shifted : (List.ofFn fun i : Fin 2 => ![(5 : ℝ), 12] i + ![(1 : ℝ), 12] i * ![(0 : ℝ), 0] i) =
        [5, 12] := by simp
    have onRay : [(5 : ℝ) * (5 / 13), 12 * (5 / 13)] = List.ofFn ![25 / 13, 60 / 13] := by norm_num
    rw [shifted, sound.outcome_project_ball known square (by norm_num), onRay]
  have lagrangianInForce : node.InForce session.store (List.ofFn ![1, 12]) (List.ofFn ![0, 0]) := inForce
  have slackLagrangianInForce :
      slackNode.InForce session.store (List.ofFn ![1, 12]) (List.ofFn ![0, 0]) := slackInForce
  have value := elimination.outcome_objective lagrangianInForce projected
  have slackValue := elimination.outcome_objective_slack slackLagrangianInForce ![4, 3]
  have atProjection : valueAt 2 ![5, 12] ![1, 12] ![0, 0] ![25 / 13, 60 / 13] = 1522 / 169 := by
    simp only [valueAt, scaledSquaredDistance, Fin.sum_univ_two]
    norm_num
  have atSlacks : valueAt 2 ![5, 12] ![1, 12] ![0, 0] ![4, 3] = 47 / 8 := by
    simp only [valueAt, scaledSquaredDistance, Fin.sum_univ_two]
    norm_num
  refine ⟨session, node, slackNode, reachable, member, slackMember, inForce, slackInForce,
    sound.projectsOnto_ball known, ⟨_, inside⟩, isClosed_centeredBall 5, convex_centeredBall 5, inside,
    ?_, ?_, ?_⟩
  · exact value.trans (congrArg Except.ok atProjection)
  · exact slackValue.trans (congrArg Except.ok atSlacks)
  · norm_num

end CompositeModels
