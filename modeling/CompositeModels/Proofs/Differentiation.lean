/-
Module: CompositeModels.Proofs.Differentiation
Purpose: Forward and backward derivatives of expressions agree in exact arithmetic. A tangent is taken up
  an expression and a weight is taken down, through the same chains, and a chain multiplies by the same
  slope in both directions. So the products with the Jacobian and its transpose of an expression leaf are
  adjoint, and its gradient has the forward derivative along every direction.
Main exports: Chain.slope, Expression.directionalDerivative_binary, Expression.dot_accumulate,
  Expression.weightedSum, Expression.gradient_weightedSum, Session.Reachable.forward_meets_backward
-/
import CompositeModels.Proofs.Session
import Mathlib.Algebra.BigOperators.Group.List.Basic

namespace CompositeModels

/-! ### Chains -/

/-- The factor of a step. -/
def ChainStep.slope : ChainStep ℝ → ℝ
  | .times factor => factor
  | .plusTimes factor => 1 + factor

theorem ChainStep.apply_eq (step : ChainStep ℝ) (t : ℝ) : step.apply t = step.slope * t := by
  cases step with
  | times factor => exact mul_comm t factor
  | plusTimes factor =>
      change t + t * factor = (1 + factor) * t
      ring

namespace Chain

/-- The factor of a chain. -/
def slope (chain : Chain ℝ) : ℝ := (chain.map ChainStep.slope).prod

theorem slope_cons (step : ChainStep ℝ) (chain : Chain ℝ) :
    slope (step :: chain) = step.slope * slope chain := by
  rw [slope, List.map_cons, List.prod_cons, slope]

theorem slope_single (factor : ℝ) : slope (single factor) = factor := List.prod_singleton

theorem forward_eq (chain : Chain ℝ) (tangent : ℝ) :
    chain.forward tangent = chain.slope * tangent := by
  induction chain generalizing tangent with
  | nil => exact (one_mul tangent).symm
  | cons step chain ih =>
      calc forward (step :: chain) tangent = forward chain (step.apply tangent) := rfl
        _ = slope chain * (step.slope * tangent) := by rw [ih, step.apply_eq]
        _ = slope (step :: chain) * tangent := by rw [slope_cons]; ring

/-- Every step is its own transpose, so the weight meets the same factor. -/
theorem backward_eq (chain : Chain ℝ) (weight : ℝ) :
    chain.backward weight = chain.slope * weight := by
  induction chain with
  | nil => exact (one_mul weight).symm
  | cons step chain ih =>
      calc backward (step :: chain) weight = step.apply (backward chain weight) := rfl
        _ = step.slope * (slope chain * weight) := by rw [step.apply_eq, ih]
        _ = slope (step :: chain) * weight := by rw [slope_cons, mul_assoc]

end Chain

/-! ### Vectors -/

namespace Vec

theorem dot_comm (u v : List ℝ) : dot u v = dot v u := by
  rw [dot, dot, mul, mul, List.zipWith_comm_of_comm mul_comm]

/-- What is added to one entry meets the same entry of the other vector. An index beyond the vectors adds
nothing, and meets nothing. -/
theorem dot_modify (g v : List ℝ) (index : ℕ) (weight : ℝ) (length : g.length = v.length) :
    dot (g.modify index (· + weight)) v = dot g v + weight * v.getD index 0 := by
  induction g generalizing v index with
  | nil =>
      obtain rfl : v = [] := List.length_eq_zero_iff.1 length.symm
      simp
  | cons a g ih =>
      obtain ⟨b, u, rfl⟩ : ∃ b u, v = b :: u := List.exists_cons_of_length_pos (by simp [← length])
      cases index with
      | zero =>
          rw [List.modify_zero_cons, dot_cons, dot_cons, List.getD_cons_zero]
          ring
      | succ index =>
          rw [List.modify_succ_cons, dot_cons, dot_cons, List.getD_cons_succ,
            ih u index (by simpa using length)]
          ring

end Vec

/-! ### Expressions -/

namespace Expression

variable (x v : List ℝ)

theorem getD_joinTangents (s t : Option ℝ) :
    (joinTangents s t).getD 0 = s.getD 0 + t.getD 0 := by
  cases s <;> cases t <;> simp [joinTangents]

/-- A tangent that is not there counts as zero, also behind a chain. -/
theorem getD_map_forward (tangent : Option ℝ) (chain : Chain ℝ) :
    (tangent.map chain.forward).getD 0 = chain.slope * tangent.getD 0 := by
  cases tangent with
  | none => exact (mul_zero _).symm
  | some t => exact chain.forward_eq t

theorem directionalDerivative_constant (a : ℝ) :
    (constant a).directionalDerivative x v = 0 := rfl

theorem directionalDerivative_entry (index : ℕ) :
    (entry index).directionalDerivative x v = v.getD index 0 := rfl

theorem directionalDerivative_binary (operator : BinaryOperator) (left right : Expression ℝ) :
    (binary operator left right).directionalDerivative x v =
      (operator.leftChain (left.value x) (right.value x)).slope * left.directionalDerivative x v +
        (operator.rightChain (left.value x) (right.value x)).slope *
          right.directionalDerivative x v := by
  rw [directionalDerivative, tangent, getD_joinTangents, getD_map_forward, getD_map_forward]
  rfl

theorem directionalDerivative_power (operand : Expression ℝ) (exponent : ℤ) :
    (power operand exponent).directionalDerivative x v =
      if exponent = 0 then 0
      else (powerChain (operand.value x) exponent).slope * operand.directionalDerivative x v := by
  rw [directionalDerivative, tangent]
  split
  · cases operand.tangent x v <;> rfl
  · exact getD_map_forward _ _

theorem directionalDerivative_unary (operator : UnaryOperator) (operand : Expression ℝ) :
    (unary operator operand).directionalDerivative x v =
      (operator.chain (operand.value x)).slope * operand.directionalDerivative x v := by
  rw [directionalDerivative, tangent, getD_map_forward]
  rfl

/-- Along `v`, the weight that is sent down an expression adds the forward derivative times the weight,
however often an entry of the point occurs. -/
theorem dot_accumulate (e : Expression ℝ) (weight : ℝ) (g : List ℝ)
    (length : g.length = v.length) :
    Vec.dot (e.accumulate x weight g) v = Vec.dot g v + weight * e.directionalDerivative x v := by
  induction e generalizing weight g with
  | constant a => rw [accumulate, directionalDerivative_constant, mul_zero, add_zero]
  | entry index =>
      rw [directionalDerivative_entry]
      exact Vec.dot_modify g v index weight length
  | binary operator left right leftIH rightIH =>
      rw [accumulate, rightIH _ _ ((length_accumulate x left _ g).trans length), leftIH _ _ length,
        Chain.backward_eq, Chain.backward_eq, directionalDerivative_binary]
      ring
  | power operand exponent ih =>
      rw [accumulate, directionalDerivative_power]
      split
      · rw [mul_zero, add_zero]
      · rw [ih _ _ length, Chain.backward_eq]
        ring
  | unary operator operand ih =>
      rw [accumulate, ih _ _ length, Chain.backward_eq, directionalDerivative_unary]
      ring

/-- The gradient has the forward derivative along every direction. -/
theorem dot_gradient (e : Expression ℝ) (length : x.length = v.length) :
    Vec.dot (e.gradient x) v = e.directionalDerivative x v := by
  rw [gradient, dot_accumulate x v e 1 _ (by simpa using length), one_mul]
  obtain ⟨u, rfl⟩ := Vec.exists_eq_ofFn length.symm
  rw [Vec.zeros_eq_ofFn, Vec.dot_ofFn]
  simp

/-- The sum of the expressions, each times its weight. -/
def weightedSum (expressions : List (Expression ℝ)) (weights : List ℝ) : Expression ℝ :=
  fold .add (constant 0)
    (List.zipWith (fun weight e => binary .mul (constant weight) e) weights expressions)

/-- The terms of a sum contribute one after the other. -/
theorem accumulate_fold_add (first : Expression ℝ) (rest : List (Expression ℝ)) (weight : ℝ)
    (g : List ℝ) : (fold .add first rest).accumulate x weight g =
      rest.foldl (fun g e => e.accumulate x weight g) (first.accumulate x weight g) := by
  induction rest generalizing first with
  | nil => rfl
  | cons e rest ih => exact ih (binary .add first e)

theorem value_fold_add (first : Expression ℝ) (rest : List (Expression ℝ)) :
    (fold .add first rest).value x = first.value x + (rest.map (·.value x)).sum := by
  induction rest generalizing first with
  | nil => exact (add_zero _).symm
  | cons e rest ih =>
      calc (fold .add (binary .add first e) rest).value x
          = first.value x + e.value x + (rest.map (·.value x)).sum := ih _
        _ = first.value x + ((e :: rest).map (·.value x)).sum := by
            rw [List.map_cons, List.sum_cons, add_assoc]

theorem value_weightedSum (expressions : List (Expression ℝ)) (weights : List ℝ) :
    (weightedSum expressions weights).value x =
      Vec.dot weights (expressions.map (·.value x)) := by
  rw [weightedSum, value_fold_add, Vec.dot, Vec.mul, Vec.total_eq_sum, List.map_zipWith,
    List.zipWith_map_right]
  exact zero_add _

/-- A weight in front of an expression is the weight that is sent down it. -/
theorem accumulate_scaled (e : Expression ℝ) (weight : ℝ) (g : List ℝ) :
    (binary .mul (constant weight) e).accumulate x 1 g = e.accumulate x weight g := by
  have sent : (BinaryOperator.rightChain .mul weight (e.value x)).backward 1 = weight :=
    one_mul weight
  rw [accumulate, accumulate]
  exact congrArg (e.accumulate x · g) sent

theorem directionalDerivative_scaled (e : Expression ℝ) (weight : ℝ) :
    (binary .mul (constant weight) e).directionalDerivative x v =
      weight * e.directionalDerivative x v := by
  have slope : (BinaryOperator.rightChain .mul weight (e.value x)).slope = weight :=
    Chain.slope_single weight
  rw [directionalDerivative_binary, directionalDerivative_constant, mul_zero, zero_add]
  exact congrArg (· * e.directionalDerivative x v) slope

theorem directionalDerivative_fold_add (first : Expression ℝ) (rest : List (Expression ℝ)) :
    (fold .add first rest).directionalDerivative x v =
      first.directionalDerivative x v + (rest.map (·.directionalDerivative x v)).sum := by
  induction rest generalizing first with
  | nil => exact (add_zero _).symm
  | cons e rest ih =>
      have both : (binary .add first e).directionalDerivative x v =
          first.directionalDerivative x v + e.directionalDerivative x v := by
        rw [directionalDerivative_binary]
        exact congrArg₂ (· + ·) (one_mul _) (one_mul _)
      calc (fold .add (binary .add first e) rest).directionalDerivative x v
          = first.directionalDerivative x v + e.directionalDerivative x v +
              (rest.map (·.directionalDerivative x v)).sum := by rw [← both]; exact ih _
        _ = first.directionalDerivative x v +
              ((e :: rest).map (·.directionalDerivative x v)).sum := by
            rw [List.map_cons, List.sum_cons, add_assoc]

end Expression

/-! ### Leaves -/

namespace ExpressionLeaf

variable (leaf : ExpressionLeaf ℝ) (x v w : List ℝ)

/-- The transposed Jacobian times `w` is the backward gradient of the weighted sum of the
constraints. -/
theorem gradient_weightedSum :
    (Expression.weightedSum leaf.constraints w).gradient x = leaf.pullback x w := by
  rw [Expression.gradient, Expression.weightedSum, Expression.accumulate_fold_add, pullback,
    Expression.accumulate]
  generalize (Vec.zeros x.length : List ℝ) = g
  induction leaf.constraints generalizing w g with
  | nil =>
      rw [List.zipWith_nil_right]
      rfl
  | cons e rest ih =>
      cases w with
      | nil => rfl
      | cons weight w =>
          rw [List.zipWith_cons_cons, List.foldl_cons, Expression.accumulate_scaled, ih]
          rfl

/-- The weighted sum of the constraints has the forward derivative that the Jacobian times `v` has
against the weights. -/
theorem directionalDerivative_weightedSum :
    (Expression.weightedSum leaf.constraints w).directionalDerivative x v =
      Vec.dot (leaf.pushforward x v) w := by
  rw [Expression.weightedSum, Expression.directionalDerivative_fold_add,
    Expression.directionalDerivative_constant, zero_add, Vec.dot, Vec.mul, Vec.total_eq_sum,
    pushforward, List.zipWith_map_left, List.map_zipWith, List.zipWith_comm]
  congr 1
  refine congrArg (List.zipWith · leaf.constraints w) ?_
  funext e weight
  rw [Expression.directionalDerivative_scaled, mul_comm]

/-- Both products are the derivative of the weighted sum along `v`: the one by tangents, the other by
weights. -/
theorem dot_pushforward (length : x.length = v.length) :
    Vec.dot (leaf.pushforward x v) w = Vec.dot v (leaf.pullback x w) := by
  rw [← directionalDerivative_weightedSum, ← gradient_weightedSum, Vec.dot_comm v]
  exact (Expression.dot_gradient x v _ length).symm

end ExpressionLeaf

/-! ### Sessions -/

namespace Session.Sound

variable {session : Session ℝ} (sound : session.Sound) {leaf : ExpressionLeaf ℝ}
  (member : .expression leaf ∈ session.models)
include sound member

/-- Without constraints both products are those of no expression at all. -/
theorem constraints_eq_nil (none : ¬ 0 < leaf.header.ncon) : leaf.constraints = [] := by
  have length : leaf.constraints.length = leaf.header.ncon := sound.family.regular member
  exact List.length_eq_zero_iff.1 (length.trans (Nat.eq_zero_of_not_pos none))

theorem outcome_jacobianProduct_expression {x v : List ℝ} (hx : x.length = leaf.header.nvar)
    (hv : v.length = leaf.header.nvar) :
    (leaf.oracle.jacobianProduct (.vector x) (.vector v) none).outcome session.store =
      .ok (leaf.pushforward x v) := by
  refine (sound.outcome_jacobianProduct member _ _ none).trans ?_
  rw [ConstraintMeaning.jacobianProductAt_vector hx hv]
  split
  · rfl
  · next none =>
      rw [ExpressionLeaf.pushforward, sound.constraints_eq_nil member none, List.map_nil]

theorem outcome_adjointProduct_expression {x w : List ℝ} (hx : x.length = leaf.header.nvar)
    (hw : w.length = leaf.header.ncon) :
    (leaf.oracle.adjointProduct (.vector x) (.vector w) none).outcome session.store =
      .ok (leaf.pullback x w) := by
  refine (sound.outcome_adjointProduct member _ _ none).trans ?_
  rw [ConstraintMeaning.adjointProductAt_vector hx hw]
  split
  · rfl
  · next none =>
      rw [ExpressionLeaf.pullback, sound.constraints_eq_nil member none, List.zip_nil_left,
        List.foldl_nil, hx]
      rfl

theorem outcome_gradient_expression {x : List ℝ} (hx : x.length = leaf.header.nvar) :
    (leaf.oracle.gradient (.vector x) none).outcome session.store =
      .ok (leaf.objective.gradient x) := by
  refine (sound.outcome_gradient member (Model.repeatable _) _ none).trans ?_
  rw [SmoothMeaning.gradientAt_vector hx]
  rfl

end Session.Sound

/-- In every session, at every point and for all vectors of the declared lengths, an expression leaf
returns both products and its gradient. The products with the Jacobian and its transpose are adjoint.
The latter is the backward gradient of the weighted sum of the constraints, and the gradient has the
forward derivative of the objective along every direction. -/
theorem Session.Reachable.forward_meets_backward {session : Session ℝ} (reachable : session.Reachable)
    {leaf : ExpressionLeaf ℝ} (member : .expression leaf ∈ session.models) {x v w : List ℝ}
    (hx : x.length = leaf.header.nvar) (hv : v.length = leaf.header.nvar)
    (hw : w.length = leaf.header.ncon) :
    ∃ p q g,
      (leaf.oracle.jacobianProduct (.vector x) (.vector v) none).outcome session.store = .ok p ∧
      (leaf.oracle.adjointProduct (.vector x) (.vector w) none).outcome session.store = .ok q ∧
      (leaf.oracle.gradient (.vector x) none).outcome session.store = .ok g ∧
      Vec.dot p w = Vec.dot v q ∧
      (Expression.weightedSum leaf.constraints w).value x = Vec.dot w (leaf.values x) ∧
      q = (Expression.weightedSum leaf.constraints w).gradient x ∧
      Vec.dot g v = leaf.objective.directionalDerivative x v := by
  have sound := reachable.sound
  refine ⟨_, _, _, sound.outcome_jacobianProduct_expression member hx hv,
    sound.outcome_adjointProduct_expression member hx hw,
    sound.outcome_gradient_expression member hx, ?_, ?_, ?_, ?_⟩
  · exact leaf.dot_pushforward x v w (hx.trans hv.symm)
  · exact Expression.value_weightedSum x leaf.constraints w
  · exact (leaf.gradient_weightedSum x w).symm
  · exact Expression.dot_gradient x v leaf.objective (hx.trans hv.symm)

/-! ### Kinks

The objective `max(x_0, x_1) + |x_0|` and the constraint map `c(x) = (x_0 x_0, x_1^0 x_0)`, which at the
origin have a tie, an absolute value of zero and a zero power. -/

namespace Session

/-- The leaf with both kinks. -/
def kinkLeaf : ExpressionLeaf ℝ where
  header := ⟨1 + 1, 1 + 1, [0, 0], [0, 0], true, "kinks"⟩
  objective := .binary .add (.binary .max (.entry 0) (.entry 1)) (.unary .abs (.entry 0))
  constraints := [.binary .mul (.entry 0) (.entry 0),
    .binary .mul (.power (.entry 1) 0) (.entry 0)]

/-- The session in which the leaf was built. -/
noncomputable def kinked : Session ℝ :=
  ({} : Session ℝ).run [.build (.ofExpressions kinkLeaf.objective (.vector [0, 0])
    (some { expressions := kinkLeaf.constraints }) none true "kinks")]

theorem kinkLeaf_mem_kinked : .expression kinkLeaf ∈ kinked.models := .head _

theorem reachable_kinked : kinked.Reachable := by
  refine Reachable.run .start ⟨⟨?_, ?_, trivial⟩, trivial⟩
  · intro constraintMap same
    cases same
    exact ConstraintMap.consistent_of_undeclared rfl
  · intro base same
    cases same

/-- Along `(1, 2)` each side of the tie counts by half, and the absolute value rises. -/
theorem directionalDerivative_kinkLeaf :
    kinkLeaf.objective.directionalDerivative [0, 0] [1, 2] = 5 / 2 := by
  have share : BinaryOperator.selectedShare (0 : ℝ) 0 (Scalar.maximum 0 0) = 1 / 2 := by
    simp [BinaryOperator.selectedShare, Scalar.maximum, Scalar.half_real]
  have left : (BinaryOperator.leftChain .max (0 : ℝ) 0).slope = 1 / 2 :=
    (Chain.slope_single _).trans share
  have right : (BinaryOperator.rightChain .max (0 : ℝ) 0).slope = 1 / 2 :=
    (Chain.slope_single _).trans share
  have rise : (UnaryOperator.chain .abs (0 : ℝ)).slope = 1 :=
    (Chain.slope_single _).trans (if_pos le_rfl)
  calc kinkLeaf.objective.directionalDerivative [0, 0] [1, 2]
      = 1 * ((BinaryOperator.leftChain .max (0 : ℝ) 0).slope * 1 +
          (BinaryOperator.rightChain .max (0 : ℝ) 0).slope * 2) +
        1 * ((UnaryOperator.chain .abs (0 : ℝ)).slope * 1) := by
        rw [kinkLeaf, Expression.directionalDerivative_binary,
          Expression.directionalDerivative_binary, Expression.directionalDerivative_unary]
        rfl
    _ = 5 / 2 := by
        rw [left, right, rise]
        norm_num

theorem forward_meets_backward_kinks : kinked.Reachable ∧ ∃ p q g,
    (kinkLeaf.oracle.jacobianProduct (.vector [0, 0]) (.vector [1, 2]) none).outcome kinked.store =
      .ok p ∧
    (kinkLeaf.oracle.adjointProduct (.vector [0, 0]) (.vector [3, 4]) none).outcome kinked.store =
      .ok q ∧
    (kinkLeaf.oracle.gradient (.vector [0, 0]) none).outcome kinked.store = .ok g ∧
    Vec.dot p [3, 4] = Vec.dot [1, 2] q ∧ Vec.dot g [1, 2] = 5 / 2 := by
  obtain ⟨p, q, g, jacobian, transposed, gradient, adjoint, _, _, slope⟩ :=
    reachable_kinked.forward_meets_backward kinkLeaf_mem_kinked (x := [0, 0]) (v := [1, 2])
      (w := [3, 4]) rfl rfl rfl
  exact ⟨reachable_kinked, p, q, g, jacobian, transposed, gradient, adjoint,
    slope.trans directionalDerivative_kinkLeaf⟩

end Session

end CompositeModels
