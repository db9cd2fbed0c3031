/-
Module: CompositeModels.Proofs.ProximalOperator
Purpose: Every stack computes the proximal operator of the term that it represents, in exact arithmetic.
  The term is the indicator of a box for the model of a backend and a multiple of the sum of absolute
  values for a model that is tailored to one. The slack reformulation adds the indicator of the set of
  its base in the block of the slacks, where it projects. All other reformulations keep the term of
  their base or drop it.
Main exports: indicator, IsProximalPoint, IsProximalPoint.besideIndicator, Model.Represents,
  Model.ComputesProximal, Session.Sound.computesProximal,
  Session.Reachable.proximal_points_are_least
-/
import CompositeModels.Proofs.Clamp
import CompositeModels.Proofs.Lagrangian

namespace CompositeModels

/-! ### Layers that hand the term on -/

section HandsOn

variable {α : Type} [Elementary α] {session : Session α} {model base : Model α}

/-- A layer that hands the term on returns the proximal points of its base. -/
theorem Session.Sound.outcome_proximal_of_handsOn (sound : session.Sound)
    (member : model ∈ session.models) (baseMember : base ∈ session.models)
    (handsOn : model.termMeaning.HandsOn base.termMeaning) {x : List α}
    (length : x.length = model.header.nvar) {step : α} (positive : 0 < step) :
    (model.oracle.proximal (.vector x) step none).outcome session.store =
      (base.oracle.proximal (.vector x) step none).outcome session.store := by
  rw [sound.outcome_proximal member, sound.outcome_proximal baseMember,
    TermMeaning.proximalAt_vector positive (by simpa using length), handsOn.proximal]

theorem Session.Sound.outcome_proximalWithValue_of_handsOn (sound : session.Sound)
    (member : model ∈ session.models) (baseMember : base ∈ session.models)
    (handsOn : model.termMeaning.HandsOn base.termMeaning) {x : List α}
    (length : x.length = model.header.nvar) {step : α} (positive : 0 < step) :
    (model.oracle.proximalWithValue (.vector x) step none).outcome session.store =
      (base.oracle.proximalWithValue (.vector x) step none).outcome session.store := by
  rw [sound.outcome_proximalWithValue member, sound.outcome_proximalWithValue baseMember,
    TermMeaning.proximalWithValueAt_vector positive (by simpa using length),
    handsOn.proximalWithValue]

end HandsOn

/-! ### Terms -/

open Classical in
/-- Zero on a set of vectors, and infinite elsewhere. -/
noncomputable def indicator (S : Set (List ℝ)) (z : List ℝ) : WithTop ℝ := if z ∈ S then 0 else ⊤

theorem indicator_of_mem {S : Set (List ℝ)} {z : List ℝ} (member : z ∈ S) : indicator S z = 0 :=
  if_pos member

/-- Where an indicator is finite it is zero, on its set. -/
theorem eq_zero_of_indicator_eq {S : Set (List ℝ)} {z : List ℝ} {c : ℝ}
    (finite : indicator S z = (c : WithTop ℝ)) : z ∈ S ∧ c = 0 := by
  unfold indicator at finite
  split at finite
  · next member => exact ⟨member, (WithTop.coe_eq_zero.1 finite.symm)⟩
  · exact absurd finite.symm (WithTop.coe_ne_top)

/-- `z` minimises `step * G + 1/2 ‖· - x‖²` over the vectors where `G` is finite, and `value` is `G z`. -/
structure IsProximalPoint (G : List ℝ → WithTop ℝ) (x : List ℝ) (step value : ℝ) (z : List ℝ) :
    Prop where
  length : z.length = x.length
  attains : G z = value
  least : ∀ {other : List ℝ} {otherValue : ℝ}, other.length = x.length → G other = otherValue →
    step * value + 1 / 2 * Vec.norm (Vec.sub z x) ^ 2 ≤
      step * otherValue + 1 / 2 * Vec.norm (Vec.sub other x) ^ 2

/-! ### Simple terms -/

theorem norm_sub_ofFn_sq {n : ℕ} (u v : Fin n → ℝ) :
    Vec.norm (Vec.sub (List.ofFn u) (List.ofFn v)) ^ 2 = squaredDistance v u := by
  rw [Vec.norm_sq, Vec.sub_ofFn, Vec.dot_ofFn, squaredDistance]
  apply Finset.sum_congr rfl
  intro i _
  ring

/-- Without a term, every point is its own proximal point. -/
theorem isProximalPoint_zero (x : List ℝ) (step : ℝ) : IsProximalPoint 0 x step 0 x where
  length := rfl
  attains := rfl
  least := by
    intro other otherValue _ finite
    have zero : otherValue = 0 := WithTop.coe_eq_zero.1 finite.symm
    have nothing : Vec.norm (Vec.sub x x) ^ 2 = 0 := by
      obtain ⟨u, same⟩ := Vec.exists_eq_ofFn (v := x) rfl
      rw [same, norm_sub_ofFn_sq]
      simp [squaredDistance]
    have distance := sq_nonneg (Vec.norm (Vec.sub other x))
    rw [zero, nothing]
    linarith

theorem isProximalPoint_clamp {box : Box ℝ} (ordered : box.Ordered) {x : List ℝ}
    (length : box.length = x.length) (step : ℝ) :
    IsProximalPoint (indicator {z | box.Contains z}) x step 0 (box.clamp x) where
  length := by simp [Box.clamp, length]
  attains := indicator_of_mem (Box.contains_clamp ordered length)
  least := by
    intro other otherValue _ finite
    obtain ⟨contains, rfl⟩ := eq_zero_of_indicator_eq finite
    have nearest := Box.norm_clamp_sub_sq_le contains length
    linarith

namespace ProximableTerm

/-- Moving a number towards zero by `t` minimises `t |·|` and half the squared distance. -/
theorem softThreshold_le {t : ℝ} (nonneg : 0 ≤ t) (a b : ℝ) :
    t * |softThreshold t a| + 1 / 2 * (softThreshold t a - a) ^ 2 ≤
      t * |b| + 1 / 2 * (b - a) ^ 2 := by
  unfold softThreshold
  split
  · next above =>
      have positive : 0 < a - t := by linarith
      rw [abs_of_pos positive]
      nlinarith [le_abs_self b, sq_nonneg (b - a + t)]
  · next notAbove =>
      split
      · next below =>
          have negative : a + t < 0 := by linarith
          rw [abs_of_neg negative]
          nlinarith [neg_le_abs b, sq_nonneg (b - a - t)]
      · next notBelow =>
          -- Here `|a| ≤ t`, so the inner product of `a` and `b` is at most `t |b|`.
          have bound : |a| ≤ t := abs_le.2 ⟨by linarith, by linarith⟩
          have inner : a * b ≤ t * |b| := by
            calc a * b ≤ |a * b| := le_abs_self _
              _ = |a| * |b| := abs_mul a b
              _ ≤ t * |b| := mul_le_mul_of_nonneg_right bound (abs_nonneg b)
          rw [abs_zero]
          nlinarith [sq_nonneg b]

/-- A multiple of the sum of absolute values. -/
noncomputable def absoluteSumAt (factor : ℝ) (z : List ℝ) : ℝ := factor * (z.map (|·|)).sum

theorem value_absoluteSum (factor : ℝ) (z : List ℝ) :
    (absoluteSum factor).value z = absoluteSumAt factor z := by
  change factor * Vec.total (Vec.abs z) = _
  rw [Vec.total_eq_sum]
  rfl

theorem absoluteSumAt_cons (factor a : ℝ) (z : List ℝ) :
    absoluteSumAt factor (a :: z) = factor * |a| + absoluteSumAt factor z := by
  simp only [absoluteSumAt, List.map_cons, List.sum_cons, mul_add]

/-- The entries are moved one by one, and so the costs add up. -/
theorem map_softThreshold_le {step factor : ℝ} (nonneg : 0 ≤ step * factor) (x : List ℝ) :
    ∀ {z : List ℝ}, z.length = x.length →
      step * absoluteSumAt factor (x.map (softThreshold (step * factor))) +
          1 / 2 * Vec.norm (Vec.sub (x.map (softThreshold (step * factor))) x) ^ 2 ≤
        step * absoluteSumAt factor z + 1 / 2 * Vec.norm (Vec.sub z x) ^ 2 := by
  induction x with
  | nil =>
      intro z length
      rw [List.eq_nil_of_length_eq_zero length]
      rfl
  | cons a rest ih =>
      intro z length
      cases z with
      | nil => contradiction
      | cons b others =>
          rw [List.map_cons, absoluteSumAt_cons, absoluteSumAt_cons, Vec.norm_sub_cons_sq,
            Vec.norm_sub_cons_sq]
          have first := softThreshold_le nonneg a b
          have remaining := ih (Nat.succ.inj length)
          linarith

theorem isProximalPoint_absoluteSum {factor step : ℝ} (nonneg : 0 ≤ factor) (positive : 0 < step)
    (x : List ℝ) :
    IsProximalPoint (fun z => (absoluteSumAt factor z : ℝ)) x step
      ((absoluteSum factor).value ((absoluteSum factor).proximal x step))
      ((absoluteSum factor).proximal x step) where
  length := List.length_map _
  attains := by rw [value_absoluteSum]
  least := by
    intro other otherValue length finite
    rw [value_absoluteSum, ← WithTop.coe_injective finite]
    exact map_softThreshold_le (mul_nonneg positive.le nonneg) x length

end ProximableTerm

/-! ### Terms on two blocks -/

/-- A term of the first `m` entries, and the indicator of a set for the others. -/
noncomputable def besideIndicator {n : ℕ} (m : ℕ) (g : List ℝ → WithTop ℝ) (S : Set (Fin n → ℝ))
    (z : List ℝ) : WithTop ℝ :=
  g (z.take m) + indicator (List.ofFn '' S) (z.drop m)

/-- The blocks are minimised apart from each other: one by a proximal point, the other by a nearest
point. -/
theorem IsProximalPoint.besideIndicator {g : List ℝ → WithTop ℝ} {x z : List ℝ} {step value : ℝ}
    (proximal : IsProximalPoint g x step value z) {n : ℕ} {S : Set (Fin n → ℝ)} {s t : Fin n → ℝ}
    (nearest : IsNearest S s t) {m : ℕ} (length : x.length = m) :
    IsProximalPoint (besideIndicator m g S) (x ++ List.ofFn s) step value (z ++ List.ofFn t) where
  length := by simp [proximal.length]
  attains := by
    have lengthZ : z.length = m := proximal.length.trans length
    have projected : List.ofFn t ∈ List.ofFn '' S := ⟨t, nearest.member, rfl⟩
    rw [CompositeModels.besideIndicator, List.take_left' lengthZ, List.drop_left' lengthZ,
      proximal.attains, indicator_of_mem projected, add_zero]
  least := by
    intro other otherValue lengthOther finite
    have blocks : other.length = m + n := by simpa [length] using lengthOther
    obtain ⟨u, r, rfl, lengthU, lengthR⟩ := Vec.exists_append blocks
    rw [CompositeModels.besideIndicator, List.take_left' lengthU, List.drop_left' lengthU] at finite
    obtain ⟨termValue, zero, termEq, indicatorEq, sum⟩ := WithTop.add_eq_coe.1 finite
    obtain ⟨⟨r, inside, rfl⟩, rfl⟩ := eq_zero_of_indicator_eq indicatorEq.symm
    have first := proximal.least (lengthU.trans length.symm) termEq.symm
    have second := nearest.least r inside
    rw [Vec.norm_sub_append_sq proximal.length, Vec.norm_sub_append_sq (lengthU.trans length.symm),
      norm_sub_ofFn_sq, norm_sub_ofFn_sq, ← sum, add_zero]
    linarith

/-! ### Stacks -/

/-- The term that a stack represents. A slack reformulation represents one for each set that its base
projects onto. -/
inductive Model.Represents (store : Store ℝ) : Model ℝ → (List ℝ → WithTop ℝ) → Prop where
  | backend {leaf} (ordered : leaf.variableBox.Ordered) :
      Represents store (.backend leaf) (indicator {z | leaf.variableBox.Contains z})
  | absoluteSum {node base factor} (term : node.term = some (.absoluteSum factor))
      (nonneg : 0 ≤ factor) :
      Represents store (.tailored node base)
        fun z => (ProximableTerm.absoluteSumAt factor z : ℝ)
  | slack {wrapper base g S} (represents : Represents store base g)
      (projects : base.ProjectsOnto store S) :
      Represents store (.slack wrapper base) (besideIndicator base.header.nvar g S)
  | proximalPoint {node base g} (represents : Represents store base g) :
      Represents store (.proximalPoint node base) g
  | augmentedLagrangian {node base g} (represents : Represents store base g) :
      Represents store (.augmentedLagrangian node base) g
  | feasibility {node base g} (kept : node.withIndicator = true)
      (represents : Represents store base g) : Represents store (.feasibility node base) g
  | withoutIndicator {node base} (dropped : node.withIndicator = false) :
      Represents store (.feasibility node base) 0

/-- At each point and for each positive step the model returns a proximal point of `G`, and the same
point with the value there if it is asked for both. -/
def Model.ComputesProximal (model : Model ℝ) (store : Store ℝ) (G : List ℝ → WithTop ℝ) : Prop :=
  ∀ ⦃x : List ℝ⦄ ⦃step : ℝ⦄, x.length = model.header.nvar → 0 < step →
    ∃ value z, (model.oracle.proximal (.vector x) step none).outcome store = .ok z ∧
      (model.oracle.proximalWithValue (.vector x) step none).outcome store = .ok (value, z) ∧
      IsProximalPoint G x step value z

section Stacks

variable {session : Session ℝ} {model base : Model ℝ}

/-- It is enough that the model answers so on vectors of the right length, once its checks have passed. -/
theorem Model.ComputesProximal.of_meaning {G : List ℝ → WithTop ℝ} (sound : session.Sound)
    (member : model ∈ session.models)
    (meaning : ∀ ⦃x : List ℝ⦄ ⦃step : ℝ⦄, x.length = model.header.nvar → 0 < step →
      ∃ value z, model.termMeaning.proximal x step = .ok z ∧
        model.termMeaning.proximalWithValue x step = .ok (value, z) ∧
        IsProximalPoint G x step value z) : model.ComputesProximal session.store G := by
  intro x step length positive
  have lengthX : x.length = model.termMeaning.nvar := by simpa using length
  rw [sound.outcome_proximal member, TermMeaning.proximalAt_vector positive lengthX,
    sound.outcome_proximalWithValue member, TermMeaning.proximalWithValueAt_vector positive lengthX]
  exact meaning length positive

/-- A model that hands questions about its term on to its base computes what the base does. -/
theorem Model.ComputesProximal.of_base {G : List ℝ → WithTop ℝ} (sound : session.Sound)
    (member : model ∈ session.models) (baseMember : base ∈ session.models)
    (handsOn : model.termMeaning.HandsOn base.termMeaning)
    (computes : base.ComputesProximal session.store G) : model.ComputesProximal session.store G := by
  have nvar : model.header.nvar = base.header.nvar := by simpa using handsOn.nvar
  intro x step length positive
  rw [sound.outcome_proximal_of_handsOn member baseMember handsOn length positive,
    sound.outcome_proximalWithValue_of_handsOn member baseMember handsOn length positive]
  exact computes (length.trans nvar) positive

/-- The proximal point of a slack reformulation is that of its base beside a projection. -/
theorem Model.ComputesProximal.slack {g : List ℝ → WithTop ℝ} (sound : session.Sound)
    {wrapper : Wrapper ℝ} (member : .slack wrapper base ∈ session.models)
    (computes : base.ComputesProximal session.store g) {S : Set (Fin base.header.ncon → ℝ)}
    (projects : base.ProjectsOnto session.store S) :
    (Model.slack wrapper base).ComputesProximal session.store
      (besideIndicator base.header.nvar g S) := by
  intro point step length positive
  have baseMember : base ∈ session.models := sound.family.bases member rfl
  obtain ⟨nvar, _⟩ := sound.family.regular member
  obtain ⟨x, s, rfl, lengthX, lengthS⟩ := Vec.exists_append (length.trans nvar)
  obtain ⟨s, rfl⟩ := Vec.exists_eq_ofFn lengthS
  obtain ⟨t, nearest, projected⟩ := projects s
  obtain ⟨value, z, returned, returnedWithValue, proximal⟩ := computes lengthX positive
  refine ⟨value, z ++ List.ofFn t, ?_, ?_, proximal.besideIndicator nearest lengthX⟩
  · rw [sound.outcome_proximal_slack member lengthX lengthS positive, returned, projected]
    rfl
  · rw [sound.outcome_proximalWithValue_slack member lengthX lengthS positive, returnedWithValue,
      projected]
    rfl

/-- Every stack computes the proximal operator of the term that it represents. -/
theorem Session.Sound.computesProximal (sound : session.Sound) {G : List ℝ → WithTop ℝ}
    (represents : model.Represents session.store G) (member : model ∈ session.models) :
    model.ComputesProximal session.store G := by
  induction represents with
  | @backend leaf ordered =>
      obtain ⟨_, lengthBox, _⟩ := sound.family.regular member
      refine .of_meaning sound member fun x step length _ => ⟨0, leaf.variableBox.clamp x, rfl, rfl, ?_⟩
      exact isProximalPoint_clamp ordered (lengthBox.trans length.symm) step
  | @absoluteSum node base factor term nonneg =>
      refine .of_meaning sound member fun x step _ positive => ⟨_, _, ?_, ?_,
        ProximableTerm.isProximalPoint_absoluteSum nonneg positive x⟩
      · simp only [Model.termMeaning, Tailored.termMeaning, term]
      · simp only [Model.termMeaning, Tailored.termMeaning, term]
  | slack represents projects ih =>
      exact .slack sound member (ih (sound.family.bases member rfl)) projects
  | proximalPoint represents ih =>
      have baseMember := sound.family.bases member rfl
      obtain ⟨nvar, _⟩ := sound.family.regular member
      exact .of_base sound member baseMember (Model.handsOn_proximalPoint nvar) (ih baseMember)
  | augmentedLagrangian represents ih =>
      have baseMember := sound.family.bases member rfl
      obtain ⟨nvar, _⟩ := sound.family.regular member
      exact .of_base sound member baseMember (Model.handsOn_augmentedLagrangian nvar) (ih baseMember)
  | feasibility kept represents ih =>
      have baseMember := sound.family.bases member rfl
      obtain ⟨nvar, _⟩ := sound.family.regular member
      exact .of_base sound member baseMember (Model.handsOn_feasibility nvar kept) (ih baseMember)
  | withoutIndicator dropped =>
      refine .of_meaning sound member fun x step _ _ => ⟨0, x, ?_, ?_, isProximalPoint_zero x step⟩
      · simp [Model.termMeaning, Feasibility.termMeaning, dropped]
      · simp [Model.termMeaning, Feasibility.termMeaning, dropped]

/-- In every session, a stack that represents the term `G` returns for `x` and a positive step the point
`z` at which `step * G + 1/2 ‖· - x‖²` is least. Asked for both, it returns the same point and `G z`. -/
theorem Session.Reachable.proximal_points_are_least (reachable : session.Reachable)
    (member : model ∈ session.models) {G : List ℝ → WithTop ℝ}
    (represents : model.Represents session.store G) {x : List ℝ}
    (length : x.length = model.header.nvar) {step : ℝ} (positive : 0 < step) :
    ∃ (value : ℝ) (z : List ℝ),
      (model.oracle.proximal (.vector x) step none).outcome session.store = .ok z ∧
      (model.oracle.proximalWithValue (.vector x) step none).outcome session.store =
        .ok (value, z) ∧
      z.length = x.length ∧ G z = value ∧
      ∀ (other : List ℝ) (otherValue : ℝ), other.length = x.length → G other = otherValue →
        step * value + 1 / 2 * Vec.norm (Vec.sub z x) ^ 2 ≤
          step * otherValue + 1 / 2 * Vec.norm (Vec.sub other x) ^ 2 := by
  obtain ⟨value, z, returned, returnedWithValue, proximal⟩ :=
    reachable.sound.computesProximal represents member length positive
  exact ⟨value, z, returned, returnedWithValue, proximal.length, proximal.attains,
    fun _ _ => proximal.least⟩

end Stacks

/-! ### The ball problem -/

namespace Session

/-- The term of the slack reformulation of the ball problem: `20 |x|`, with the slacks in the ball. -/
theorem Sound.represents_ballSlack {session : Session ℝ} (sound : session.Sound)
    (member : ball ∈ session.models) :
    (Model.slack ballSlack ball).Represents session.store
      (besideIndicator 1 (fun z => (ProximableTerm.absoluteSumAt 20 z : ℝ)) (centeredBall 2 5)) :=
  .slack (.absoluteSum rfl (by norm_num)) (sound.projectsOnto_ball member)

/-- From `[25; 6, 8]`, the first entry moves to `5` and the slacks move to `(3, 4)` in the ball. -/
theorem proximal_points_are_least_ball :
    balled.Reachable ∧
      ((Model.slack ballSlack ball).oracle.proximal (.vector [25, 6, 8]) 1 none).outcome
        balled.store = .ok [5, 3, 4] ∧
      ∃ value : ℝ,
        ((Model.slack ballSlack ball).oracle.proximalWithValue (.vector [25, 6, 8]) 1 none).outcome
          balled.store = .ok (value, [5, 3, 4]) ∧
        ∀ (other : List ℝ) (otherValue : ℝ), other.length = 3 →
          besideIndicator 1 (fun z => (ProximableTerm.absoluteSumAt 20 z : ℝ)) (centeredBall 2 5)
            other = otherValue →
          1 * value + 1 / 2 * Vec.norm (Vec.sub [5, 3, 4] [25, 6, 8]) ^ 2 ≤
            1 * otherValue + 1 / 2 * Vec.norm (Vec.sub other [25, 6, 8]) ^ 2 := by
  have member := ballSlack_mem_balled
  have baseMember := ball_mem_balled
  have sound := reachable_balled.sound
  have first : (ball.oracle.proximal (.vector [25]) 1 none).outcome balled.store = .ok [5] := by
    rw [sound.outcome_proximal baseMember, TermMeaning.proximalAt_vector one_pos rfl]
    change Except.ok [ProximableTerm.softThreshold ((1 : ℝ) * 20) 25] = _
    rw [ProximableTerm.softThreshold]
    norm_num
  have second : (ball.oracle.project (.vector [6, 8]) none).outcome balled.store = .ok [3, 4] := by
    have square : (6 : ℝ) * 6 + 8 * 8 = 10 ^ 2 := by norm_num
    rw [sound.outcome_project_ball baseMember square (by norm_num)]
    norm_num
  have point : ((Model.slack ballSlack ball).oracle.proximal (.vector [25, 6, 8]) 1 none).outcome
      balled.store = .ok [5, 3, 4] := by
    have blocks := sound.outcome_proximal_slack member (x := [25]) (s := [6, 8]) rfl rfl one_pos
    rw [first, second] at blocks
    exact blocks
  obtain ⟨value, z, returned, returnedWithValue, _, _, least⟩ :=
    reachable_balled.proximal_points_are_least member (sound.represents_ballSlack baseMember)
      (x := [25, 6, 8]) rfl one_pos
  cases returned.symm.trans point
  exact ⟨reachable_balled, point, value, returnedWithValue, least⟩

end Session

end CompositeModels
