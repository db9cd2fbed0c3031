/-
Module: CompositeModels.Proofs.Transpose
Purpose: Products with the Jacobian and with its transpose belong together on every stack: if they are
  adjoint for the leaf, then they are for every model built over it. Reformulations without constraints
  answer on their own, those that hand everything on have the products of their base, and a slack layer
  puts minus the identity beside the Jacobian of its base.
Main exports: Model.leaf, Model.IsPackaged, Model.Forwards, Model.Adjoint, Model.HasProducts,
  Session.Sound.adjoint, Session.Sound.hasProducts, Session.Reachable.products_are_adjoint
-/
import CompositeModels.Proofs.Lagrangian

namespace CompositeModels

/-! ### Leaves and layers -/

namespace Model

variable {α : Type}

/-- The leaf at the bottom of a stack. -/
def leaf : Model α → Model α
  | .backend leaf => .backend leaf
  | .expression leaf => .expression leaf
  | .slack _ base | .proximalPoint _ base | .augmentedLagrangian _ base | .feasibility _ base
  | .tailored _ base => base.leaf

/-- No layer of the stack is tailored. -/
def IsPackaged : Model α → Prop
  | .backend _ | .expression _ => True
  | .slack _ base | .proximalPoint _ base | .augmentedLagrangian _ base | .feasibility _ base =>
      base.IsPackaged
  | .tailored .. => False

/-- The tailored layers of a stack keep the dimensions of their bases, so that they can hand everything
on. Below a reformulation without constraints nothing is asked for. -/
def Forwards : Model α → Prop
  | .backend _ | .expression _ | .augmentedLagrangian .. | .feasibility .. => True
  | .slack _ base | .proximalPoint _ base => base.Forwards
  | .tailored node base =>
      node.header.nvar = base.header.nvar ∧ node.header.ncon = base.header.ncon ∧ base.Forwards

end Model

/-! ### Layers that hand everything on -/

/-- A problem with the dimensions of its base that hands questions about the Jacobian on to it. -/
structure ConstraintMeaning.HandsOn {α : Type} [Scalar α] (meaning base : ConstraintMeaning α) :
    Prop where
  nvar : meaning.nvar = base.nvar
  ncon : meaning.ncon = base.ncon
  jacobianProduct : ∀ x v, meaning.jacobianProduct x v =
    base.jacobianProductAt (.vector x) (.vector v) none
  adjointProduct : ∀ x w, meaning.adjointProduct x w =
    base.adjointProductAt (.vector x) (.vector w) none

section HandsOn

variable {α : Type} [Scalar α] {meaning base : ConstraintMeaning α}

namespace ConstraintMeaning.HandsOn

variable (handsOn : meaning.HandsOn base)
include handsOn

theorem jacobianProductAt {x v : List α} (hx : x.length = base.nvar) (hv : v.length = base.nvar) :
    meaning.jacobianProductAt (.vector x) (.vector v) none =
      base.jacobianProductAt (.vector x) (.vector v) none := by
  rw [jacobianProductAt_vector (hx.trans handsOn.nvar.symm) (hv.trans handsOn.nvar.symm),
    handsOn.jacobianProduct, handsOn.ncon]
  split
  · rfl
  · next unconstrained => rw [jacobianProductAt_vector hx hv, if_neg unconstrained]

theorem adjointProductAt {x w : List α} (hx : x.length = base.nvar) (hw : w.length = base.ncon) :
    meaning.adjointProductAt (.vector x) (.vector w) none =
      base.adjointProductAt (.vector x) (.vector w) none := by
  rw [adjointProductAt_vector (hx.trans handsOn.nvar.symm) (hw.trans handsOn.ncon.symm),
    handsOn.adjointProduct, handsOn.ncon, handsOn.nvar]
  split
  · rfl
  · next unconstrained => rw [adjointProductAt_vector hx hw, if_neg unconstrained]

end ConstraintMeaning.HandsOn

theorem ProximalPoint.handsOn {node : ProximalPoint α} (nvar : node.header.nvar = base.nvar)
    (ncon : node.header.ncon = base.ncon) : (node.constraintMeaning base).HandsOn base where
  nvar := nvar
  ncon := ncon
  jacobianProduct := fun _ _ => rfl
  adjointProduct := fun _ _ => rfl

theorem Tailored.handsOn {node : Tailored α} (nvar : node.header.nvar = base.nvar)
    (ncon : node.header.ncon = base.ncon) : (node.constraintMeaning base).HandsOn base where
  nvar := nvar
  ncon := ncon
  jacobianProduct := fun x v =>
    ConstraintMeaning.jacobianProductAt_some ((Vec.length_zeros _).trans ncon) (.vector x) (.vector v)
  adjointProduct := fun x w =>
    ConstraintMeaning.adjointProductAt_some ((Vec.length_zeros _).trans nvar) (.vector x) (.vector w)

/-- Where a tailored model with constraints returns a product with the Jacobian, it has the dimensions of
its base, which refuses all other vectors. -/
theorem Tailored.dimensions_of_jacobianProduct {node : Tailored α} {x v p : List α}
    (hx : x.length = node.header.nvar)
    (returned : (node.constraintMeaning base).jacobianProduct x v = .ok p) :
    node.header.nvar = base.nvar ∧ node.header.ncon = base.ncon := by
  obtain ⟨_, checkedPoints, rest⟩ := exists_of_bind_eq_ok returned
  obtain ⟨_, checkedOut, _⟩ := exists_of_bind_eq_ok rest
  have shapeX : [x.length] = [base.nvar] := (shapes_eq_of_check checkedPoints).1
  have shapeOut : [(Vec.zeros node.header.ncon : List α).length] = [base.ncon] :=
    shape_eq_of_check checkedOut
  rw [hx] at shapeX
  rw [Vec.length_zeros] at shapeOut
  exact ⟨List.head_eq_of_cons_eq shapeX, List.head_eq_of_cons_eq shapeOut⟩

end HandsOn

section Outcomes

variable {α : Type} [Elementary α] {session : Session α} {model base : Model α}

theorem ConstraintMeaning.HandsOn.header_nvar
    (handsOn : model.constraintMeaning.HandsOn base.constraintMeaning) :
    model.header.nvar = base.header.nvar := by
  simpa using handsOn.nvar

theorem ConstraintMeaning.HandsOn.header_ncon
    (handsOn : model.constraintMeaning.HandsOn base.constraintMeaning) :
    model.header.ncon = base.header.ncon := by
  simpa using handsOn.ncon

theorem Session.Sound.outcome_jacobianProduct_of_handsOn (sound : session.Sound)
    (member : model ∈ session.models) (baseMember : base ∈ session.models)
    (handsOn : model.constraintMeaning.HandsOn base.constraintMeaning) {x v : List α}
    (hx : x.length = base.header.nvar) (hv : v.length = base.header.nvar) :
    (model.oracle.jacobianProduct (.vector x) (.vector v) none).outcome session.store =
      (base.oracle.jacobianProduct (.vector x) (.vector v) none).outcome session.store := by
  rw [sound.outcome_jacobianProduct member, sound.outcome_jacobianProduct baseMember,
    handsOn.jacobianProductAt (by simpa using hx) (by simpa using hv)]

theorem Session.Sound.outcome_adjointProduct_of_handsOn (sound : session.Sound)
    (member : model ∈ session.models) (baseMember : base ∈ session.models)
    (handsOn : model.constraintMeaning.HandsOn base.constraintMeaning) {x w : List α}
    (hx : x.length = base.header.nvar) (hw : w.length = base.header.ncon) :
    (model.oracle.adjointProduct (.vector x) (.vector w) none).outcome session.store =
      (base.oracle.adjointProduct (.vector x) (.vector w) none).outcome session.store := by
  rw [sound.outcome_adjointProduct member, sound.outcome_adjointProduct baseMember,
    handsOn.adjointProductAt (by simpa using hx) (by simpa using hw)]

end Outcomes

/-! ### Layers without constraints -/

section Unconstrained

variable {α : Type} [Elementary α] {session : Session α} {model : Model α}

/-- Without constraints the product with the Jacobian is empty. -/
theorem Session.Sound.outcome_jacobianProduct_unconstrained (sound : session.Sound)
    (member : model ∈ session.models) (unconstrained : model.header.ncon = 0) {x v : List α}
    (hx : x.length = model.header.nvar) (hv : v.length = model.header.nvar) :
    (model.oracle.jacobianProduct (.vector x) (.vector v) none).outcome session.store = .ok [] := by
  rw [sound.outcome_jacobianProduct member,
    ConstraintMeaning.jacobianProductAt_vector (by simpa using hx) (by simpa using hv)]
  simp [unconstrained]

/-- Without constraints the product with the transposed Jacobian is zero. -/
theorem Session.Sound.outcome_adjointProduct_unconstrained (sound : session.Sound)
    (member : model ∈ session.models) (unconstrained : model.header.ncon = 0) {x w : List α}
    (hx : x.length = model.header.nvar) (hw : w.length = model.header.ncon) :
    (model.oracle.adjointProduct (.vector x) (.vector w) none).outcome session.store =
      .ok (Vec.zeros model.header.nvar) := by
  rw [sound.outcome_adjointProduct member,
    ConstraintMeaning.adjointProductAt_vector (by simpa using hx) (by simpa using hw)]
  simp [unconstrained]

end Unconstrained

/-! ### Products that are returned -/

section Returned

variable {α : Type} [Elementary α]

/-- Both products are returned, whatever the vectors are. -/
def Model.HasProducts (model : Model α) (store : Store α) : Prop :=
  ∀ ⦃x v w : List α⦄, x.length = model.header.nvar → v.length = model.header.nvar →
    w.length = model.header.ncon →
    (∃ p, (model.oracle.jacobianProduct (.vector x) (.vector v) none).outcome store = .ok p) ∧
      ∃ q, (model.oracle.adjointProduct (.vector x) (.vector w) none).outcome store = .ok q

variable {session : Session α} {model base : Model α}

theorem Model.HasProducts.of_handsOn (sound : session.Sound) (member : model ∈ session.models)
    (baseMember : base ∈ session.models)
    (handsOn : model.constraintMeaning.HandsOn base.constraintMeaning)
    (products : base.HasProducts session.store) : model.HasProducts session.store := by
  intro x v w hx hv hw
  rw [handsOn.header_nvar] at hx hv
  rw [handsOn.header_ncon] at hw
  rw [sound.outcome_jacobianProduct_of_handsOn member baseMember handsOn hx hv,
    sound.outcome_adjointProduct_of_handsOn member baseMember handsOn hx hw]
  exact products hx hv hw

theorem Model.HasProducts.of_unconstrained (sound : session.Sound) (member : model ∈ session.models)
    (unconstrained : model.header.ncon = 0) : model.HasProducts session.store :=
  fun _ _ _ hx hv hw =>
    ⟨⟨_, sound.outcome_jacobianProduct_unconstrained member unconstrained hx hv⟩,
      ⟨_, sound.outcome_adjointProduct_unconstrained member unconstrained hx hw⟩⟩

/-- If the leaf of a stack returns all products, then the stack does, as long as it hands everything on. -/
theorem Session.Sound.hasProducts (sound : session.Sound) (member : model ∈ session.models)
    (forwards : model.Forwards) (leaf : model.leaf.HasProducts session.store) :
    model.HasProducts session.store := by
  induction model with
  | backend leaf => exact leaf
  | expression leaf => exact leaf
  | slack wrapper base ih =>
      have baseMember : base ∈ session.models := sound.family.bases member rfl
      have products : base.HasProducts session.store := ih baseMember forwards leaf
      obtain ⟨nvar, ncon⟩ := sound.family.regular member
      intro x v w hx hv hw
      obtain ⟨x, s, rfl, hx, hs⟩ := Vec.exists_append (hx.trans nvar)
      obtain ⟨v, t, rfl, hv, ht⟩ := Vec.exists_append (hv.trans nvar)
      have hw : w.length = base.header.ncon := hw.trans ncon
      obtain ⟨⟨p, jacobian⟩, ⟨q, adjoint⟩⟩ := products hx hv hw
      rw [sound.outcome_jacobianProduct_slack member hx hs hv ht, jacobian,
        sound.outcome_adjointProduct_slack member hx hs hw, adjoint]
      exact ⟨⟨_, rfl⟩, ⟨_, rfl⟩⟩
  | proximalPoint node base ih =>
      have baseMember : base ∈ session.models := sound.family.bases member rfl
      obtain ⟨nvar, ncon, _⟩ := sound.family.regular member
      refine .of_handsOn sound member baseMember (ProximalPoint.handsOn ?_ ?_)
        (ih baseMember forwards leaf)
      · simpa using nvar
      · simpa using ncon
  | augmentedLagrangian node base =>
      obtain ⟨_, ncon, _⟩ := sound.family.regular member
      exact .of_unconstrained sound member ncon
  | feasibility node base =>
      obtain ⟨_, ncon, _⟩ := sound.family.regular member
      exact .of_unconstrained sound member ncon
  | tailored node base ih =>
      have baseMember : base ∈ session.models := sound.family.bases member rfl
      obtain ⟨nvar, ncon, forwards⟩ := forwards
      refine .of_handsOn sound member baseMember (Tailored.handsOn ?_ ?_)
        (ih baseMember forwards leaf)
      · simpa using nvar
      · simpa using ncon

end Returned

/-! ### Products that are adjoint -/

/-- Where both products are returned, one is the transpose of the other: for all `v` and `w`, the inner
product of `J v` with `w` is that of `v` with the transposed product. -/
def Model.Adjoint (model : Model ℝ) (store : Store ℝ) : Prop :=
  ∀ ⦃x v w p q : List ℝ⦄, x.length = model.header.nvar → v.length = model.header.nvar →
    w.length = model.header.ncon →
    (model.oracle.jacobianProduct (.vector x) (.vector v) none).outcome store = .ok p →
    (model.oracle.adjointProduct (.vector x) (.vector w) none).outcome store = .ok q →
    Vec.dot p w = Vec.dot v q

section Adjoint

variable {session : Session ℝ} {model base : Model ℝ}

theorem Model.Adjoint.of_handsOn (sound : session.Sound) (member : model ∈ session.models)
    (baseMember : base ∈ session.models)
    (handsOn : model.constraintMeaning.HandsOn base.constraintMeaning)
    (adjoint : base.Adjoint session.store) : model.Adjoint session.store := by
  intro x v w p q hx hv hw jacobian transposed
  rw [handsOn.header_nvar] at hx hv
  rw [handsOn.header_ncon] at hw
  rw [sound.outcome_jacobianProduct_of_handsOn member baseMember handsOn hx hv] at jacobian
  rw [sound.outcome_adjointProduct_of_handsOn member baseMember handsOn hx hw] at transposed
  exact adjoint hx hv hw jacobian transposed

theorem Model.Adjoint.of_unconstrained (sound : session.Sound) (member : model ∈ session.models)
    (unconstrained : model.header.ncon = 0) : model.Adjoint session.store := by
  intro x v w p q hx hv hw jacobian transposed
  rw [sound.outcome_jacobianProduct_unconstrained member unconstrained hx hv] at jacobian
  rw [sound.outcome_adjointProduct_unconstrained member unconstrained hx hw] at transposed
  cases jacobian
  cases transposed
  rw [Vec.dot_zeros hv]
  rfl

/-- The block of the slacks contributes `-<t, w>` to both sides. -/
theorem Model.Adjoint.slack (sound : session.Sound) {wrapper : Wrapper ℝ}
    (member : .slack wrapper base ∈ session.models) (adjoint : base.Adjoint session.store) :
    (Model.slack wrapper base).Adjoint session.store := by
  have baseMember : base ∈ session.models := sound.family.bases member rfl
  obtain ⟨nvar, ncon⟩ := sound.family.regular member
  intro x v w p q hx hv hw jacobian transposed
  obtain ⟨x, s, rfl, hx, hs⟩ := Vec.exists_append (hx.trans nvar)
  obtain ⟨v, t, rfl, hv, ht⟩ := Vec.exists_append (hv.trans nvar)
  have hw : w.length = base.header.ncon := hw.trans ncon
  rw [sound.outcome_jacobianProduct_slack member hx hs hv ht] at jacobian
  rw [sound.outcome_adjointProduct_slack member hx hs hw] at transposed
  obtain ⟨p, baseJacobian, same⟩ := exists_of_bind_eq_ok jacobian
  cases same
  obtain ⟨q, baseTransposed, same⟩ := exists_of_bind_eq_ok transposed
  cases same
  have lengthP : p.length = base.header.ncon := sound.length_jacobianProduct baseMember baseJacobian
  have lengthQ : q.length = base.header.nvar :=
    sound.length_adjointProduct baseMember baseTransposed
  calc Vec.dot (Vec.sub p t) w = Vec.dot p w - Vec.dot t w := Vec.dot_sub_left lengthP ht hw
    _ = Vec.dot v q + -Vec.dot t w := by
        rw [adjoint hx hv hw baseJacobian baseTransposed, sub_eq_add_neg]
    _ = Vec.dot v q + Vec.dot t (Vec.neg w) := by rw [Vec.dot_neg_right ht hw]
    _ = Vec.dot (v ++ t) (q ++ Vec.neg w) := (Vec.dot_append (hv.trans lengthQ.symm)).symm

/-- If the products are adjoint for the leaf of a stack, then they are for the stack. A tailored layer with
other dimensions than its base has no constraints, or it returns no product with the Jacobian. -/
theorem Session.Sound.adjoint (sound : session.Sound) (member : model ∈ session.models)
    (leaf : model.leaf.Adjoint session.store) : model.Adjoint session.store := by
  induction model with
  | backend leaf => exact leaf
  | expression leaf => exact leaf
  | slack wrapper base ih =>
      exact .slack sound member (ih (sound.family.bases member rfl) leaf)
  | proximalPoint node base ih =>
      have baseMember : base ∈ session.models := sound.family.bases member rfl
      obtain ⟨nvar, ncon, _⟩ := sound.family.regular member
      refine .of_handsOn sound member baseMember (ProximalPoint.handsOn ?_ ?_) (ih baseMember leaf)
      · simpa using nvar
      · simpa using ncon
  | augmentedLagrangian node base =>
      obtain ⟨_, ncon, _⟩ := sound.family.regular member
      exact .of_unconstrained sound member ncon
  | feasibility node base =>
      obtain ⟨_, ncon, _⟩ := sound.family.regular member
      exact .of_unconstrained sound member ncon
  | tailored node base ih =>
      have baseMember : base ∈ session.models := sound.family.bases member rfl
      by_cases constrained : 0 < (Model.tailored node base).header.ncon
      · intro x v w p q hx hv hw jacobian transposed
        have returned := jacobian
        rw [sound.outcome_jacobianProduct member,
          ConstraintMeaning.jacobianProductAt_vector (by simpa using hx) (by simpa using hv),
          Model.ncon_constraintMeaning, if_pos constrained] at returned
        obtain ⟨nvar, ncon⟩ := Tailored.dimensions_of_jacobianProduct hx returned
        have handsOn : (node.constraintMeaning base.constraintMeaning).HandsOn
            base.constraintMeaning := Tailored.handsOn nvar ncon
        exact Model.Adjoint.of_handsOn sound member baseMember handsOn (ih baseMember leaf) hx hv hw
          jacobian transposed
      · exact .of_unconstrained sound member (Nat.eq_zero_of_not_pos constrained)

/-- In every session: if the products with the Jacobian and its transpose are adjoint for the leaf of a
stack, then they are for the stack, and if the leaf returns them all, a stack that hands everything on
does. The Jacobian of each slack layer is that of its base beside minus the identity, and its blocks have
the dimensions of the base, whatever the base is. -/
theorem Session.Reachable.products_are_adjoint (reachable : session.Reachable) :
    (∀ model ∈ session.models, model.leaf.Adjoint session.store → model.Adjoint session.store) ∧
    (∀ model ∈ session.models, model.Forwards → model.leaf.HasProducts session.store →
      model.HasProducts session.store) ∧
    ∀ (wrapper : Wrapper ℝ) (base : Model ℝ), .slack wrapper base ∈ session.models →
      wrapper.header.nvar = base.header.nvar + base.header.ncon ∧
      wrapper.header.ncon = base.header.ncon ∧
      ∀ {x s v t w : List ℝ}, x.length = base.header.nvar → s.length = base.header.ncon →
        v.length = base.header.nvar → t.length = base.header.ncon → w.length = base.header.ncon →
        ((Model.slack wrapper base).oracle.jacobianProduct (.vector (x ++ s)) (.vector (v ++ t))
            none).outcome session.store =
          (do
            let p ← (base.oracle.jacobianProduct (.vector x) (.vector v) none).outcome session.store
            return Vec.sub p t) ∧
        ((Model.slack wrapper base).oracle.adjointProduct (.vector (x ++ s)) (.vector w)
            none).outcome session.store =
          (do
            let q ← (base.oracle.adjointProduct (.vector x) (.vector w) none).outcome session.store
            return q ++ Vec.neg w) := by
  have sound := reachable.sound
  refine ⟨fun model member leaf => sound.adjoint member leaf,
    fun model member forwards leaf => sound.hasProducts member forwards leaf, ?_⟩
  intro wrapper base member
  obtain ⟨nvar, ncon⟩ := sound.family.regular member
  refine ⟨nvar, ncon, fun hx hs hv ht hw => ⟨?_, ?_⟩⟩
  · exact sound.outcome_jacobianProduct_slack member hx hs hv ht
  · exact sound.outcome_adjointProduct_slack member hx hs hw

end Adjoint

/-! ### The ball problem -/

namespace Session.Sound

variable {session : Session ℝ} (sound : session.Sound) (member : ballLeaf ∈ session.models)
include sound member

/-- The Jacobian of `(3 + x, 4 + 4 x)` is the column `(1, 4)`. -/
theorem outcome_jacobianProduct_ballLeaf (x v : ℝ) :
    (ballLeaf.oracle.jacobianProduct (.vector [x]) (.vector [v]) none).outcome session.store =
      .ok [v, v * 4] := by
  rw [sound.outcome_jacobianProduct member]
  rfl

theorem outcome_adjointProduct_ballLeaf (x a b : ℝ) :
    (ballLeaf.oracle.adjointProduct (.vector [x]) (.vector [a, b]) none).outcome session.store =
      .ok [0 + a + b * 4] := by
  rw [sound.outcome_adjointProduct member]
  rfl

theorem adjoint_ballLeaf : ballLeaf.Adjoint session.store := by
  intro x v w p q hx hv hw jacobian transposed
  obtain ⟨x, rfl⟩ := List.length_eq_one_iff.1 hx
  obtain ⟨v, rfl⟩ := List.length_eq_one_iff.1 hv
  obtain ⟨a, b, rfl⟩ := List.length_eq_two.1 hw
  rw [sound.outcome_jacobianProduct_ballLeaf member] at jacobian
  rw [sound.outcome_adjointProduct_ballLeaf member] at transposed
  cases jacobian
  cases transposed
  rw [Vec.dot, Vec.dot, Vec.total_eq_sum, Vec.total_eq_sum]
  simp only [Vec.mul, List.zipWith_cons_cons, List.zipWith_nil_right, List.sum_cons, List.sum_nil]
  ring

theorem hasProducts_ballLeaf : ballLeaf.HasProducts session.store := by
  intro x v w hx hv hw
  obtain ⟨x, rfl⟩ := List.length_eq_one_iff.1 hx
  obtain ⟨v, rfl⟩ := List.length_eq_one_iff.1 hv
  obtain ⟨a, b, rfl⟩ := List.length_eq_two.1 hw
  exact ⟨⟨_, sound.outcome_jacobianProduct_ballLeaf member x v⟩,
    ⟨_, sound.outcome_adjointProduct_ballLeaf member x a b⟩⟩

end Session.Sound

/-- The slack reformulation of the ball problem, whose leaf has the Jacobian `(1, 4)`. -/
theorem Session.products_are_adjoint_ball :
    balled.Reachable ∧ ballLeaf.Adjoint balled.store ∧ ballLeaf.HasProducts balled.store ∧
      (Model.slack ballSlack ball).Adjoint balled.store ∧
      (Model.slack ballSlack ball).HasProducts balled.store := by
  have sound := reachable_balled.sound
  have adjoint := sound.adjoint_ballLeaf ballLeaf_mem_balled
  have products := sound.hasProducts_ballLeaf ballLeaf_mem_balled
  obtain ⟨adjoints, returned, _⟩ := reachable_balled.products_are_adjoint
  exact ⟨reachable_balled, adjoint, products, adjoints _ ballSlack_mem_balled adjoint,
    returned _ ballSlack_mem_balled ⟨rfl, rfl, trivial⟩ products⟩

end CompositeModels
