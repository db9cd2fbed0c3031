/-
Module: CompositeModels.Proofs.Construction
Purpose: What building a model does. Whether a construction is refused, and what it gives, does not
  depend on what happened before, except for the serial number of the new model. A refused construction
  changes nothing, and one that is granted gives a model whose data belong together.
Main exports: Store.issue, Eval.Builds, Penalty.Admissible, Penalty.ofVectors,
  AugmentedLagrangian.builds, AugmentedLagrangian.run_build, Feasibility.builds, Model.relabel,
  Construction, Construction.Admissible, Construction.builds
-/
import CompositeModels.Model.Construction
import CompositeModels.Proofs.Regular

namespace CompositeModels

variable {α β γ : Type}

/-- No backend was given other data. -/
def Store.Unrevised (store : Store α) : Prop := ∀ serial, store.revisions.get? serial = none

/-- The store after `count` more serial numbers were handed out and some events were recorded. -/
def Store.issue (store : Store α) (count : Nat) (events : List (Event α)) : Store α :=
  { store with next := store.next + count, log := store.log ++ events }

namespace Eval

/-- A construction is refused for the same cause whatever happened before, and then changes nothing, or
it always gives the same value up to the serial number, which is the next one. -/
inductive Builds (relabel : Nat → β → β) (count : Nat) (good : β → Prop) (program : Eval α β) : Prop
  | refused (cause : Error α)
      (run : ∀ store, store.Unrevised → program.run store = .error cause store)
  | granted (template : β) (events : Nat → List (Event α))
      (run : ∀ store, store.Unrevised →
        program.run store = .ok (relabel store.next template) (store.issue count (events store.next)))
      (isGood : good template)

namespace Builds

variable {relabel : Nat → β → β} {count : Nat} {good : β → Prop}

theorem ofExcept_bind {answer : Except (Error α) γ} {next : γ → Eval α β}
    (rest : ∀ value, answer = .ok value → Builds relabel count good (next value)) :
    Builds relabel count good (ofExcept answer >>= next) := by
  cases answer with
  | ok value => exact rest value rfl
  | error cause => exact .refused cause fun _ _ => rfl

theorem check_bind {n : Nat} {shapes : List Shape} {next : Unit → Eval α β}
    (rest : (∀ shape ∈ shapes, shape = [n]) → Builds relabel count good (next ())) :
    Builds relabel count good (checkVectors n shapes >>= next) :=
  ofExcept_bind fun _ passed => rest (checkVectors_eq_ok_iff.1 passed)

/-- A condition under which the construction is refused. -/
theorem refuse_if {condition : Prop} {decided : Decidable condition} {cause : Error α}
    {next : PUnit → Eval α β} (rest : ¬ condition → Builds relabel count good (next ⟨⟩)) :
    Builds relabel count good
      (if condition then MonadExcept.throw cause >>= next else next ⟨⟩) := by
  by_cases refused : condition
  · rw [if_pos refused]
    exact .refused cause fun _ _ => rfl
  · rw [if_neg refused]
    exact rest refused

/-- The last step of most constructions. -/
theorem issue (template : β) (event : Nat → Event α) (isGood : good template) :
    Builds relabel 1 good (do
      let serial ← freshSerial
      record (event serial)
      return relabel serial template) :=
  .granted template (fun serial => [event serial]) (fun _ _ => rfl) isGood

/-- A construction may read the store, as long as what it reads is the same in every store. -/
theorem get_bind {next : Store α → Eval α β}
    (same : ∀ store, store.Unrevised → next store = next {})
    (rest : Builds relabel count good (next {})) :
    Builds relabel count good (get >>= next) := by
  cases rest with
  | refused cause run =>
      refine .refused cause fun store unrevised => ?_
      show (next store).run store = _
      rw [same store unrevised, run store unrevised]
  | granted template events run isGood =>
      refine .granted template events (fun store unrevised => ?_) isGood
      show (next store).run store = _
      rw [same store unrevised, run store unrevised]

/-- Wrapping the value that was built. -/
theorem map {program : Eval α β} {wrap : β → γ} {relabel' : Nat → γ → γ} {good' : γ → Prop}
    (builds : Builds relabel count good program)
    (relabels : ∀ serial value, wrap (relabel serial value) = relabel' serial (wrap value))
    (isGood : ∀ value, good value → good' (wrap value)) :
    Builds relabel' count good' (do return wrap (← program)) := by
  cases builds with
  | refused cause run =>
      exact .refused cause fun store unrevised => run_bind_of_error (run store unrevised)
  | granted template events run templateGood =>
      refine .granted (wrap template) events (fun store unrevised => ?_) (isGood _ templateGood)
      rw [run_bind_of_ok (run store unrevised), ← relabels]
      rfl

end Builds

end Eval

/-! ### Headers and penalty data -/

theorem Header.dimensions_of_make [Scalar α] {nvar ncon : Int} {x0 y0 : Option (Tensor α)}
    {minimize : Bool} {name : String} {header : Header α}
    (made : make nvar ncon x0 y0 minimize name = .ok header) :
    header.nvar = nvar ∧ header.ncon = ncon := by
  unfold make at made
  by_cases invalid : nvar < 1 ∨ ncon < 0
  · rw [if_pos invalid] at made
    cases made
  · rw [if_neg invalid] at made
    obtain ⟨_, _, made⟩ := exists_of_bind_eq_ok made
    obtain ⟨_, _, made⟩ := exists_of_bind_eq_ok made
    cases made
    constructor <;> simp only [] <;> omega

/-- A derived header keeps the dimensions that are not changed. -/
theorem Header.dimensions_of_replace [Scalar α] {base header : Header α} {changes : Changes α}
    {nvar ncon : Nat} (made : base.replace changes = .ok header)
    (nvarEq : changes.nvar.getD base.nvar = nvar) (nconEq : changes.ncon.getD base.ncon = ncon) :
    header.nvar = nvar ∧ header.ncon = ncon := by
  have dimensions := dimensions_of_make made
  rw [nvarEq, nconEq] at dimensions
  exact ⟨Int.ofNat.inj dimensions.1, Int.ofNat.inj dimensions.2⟩

/-- The product of two vectors of one length along the last axis is their entrywise product. -/
theorem Tensor.mulVector?_of_shape [Scalar α] {t : Tensor α} {v : List α} {n : Nat}
    (shape : t.shape = [n]) (length : v.length = n) :
    t.mulVector? v = some (.vector (Vec.mul t.entries v)) := by
  have lengthT := length_entries_of_shape shape
  have entries : (List.range n).map (fun k => t.entries.getD k 0 * v.getD (k % n) 0) =
      Vec.mul t.entries v := by
    apply List.ext_getElem (by simp [lengthT, length])
    intro k lower upper
    have bound : k < n := by simpa using lower
    simp [Vec.mul, Nat.mod_eq_of_lt bound, lengthT, length, bound]
  have extent : (if n = 1 then n else n) = n := by simp
  simp only [mulVector?, shape, List.getLast?_singleton, length, extent, true_or, if_true,
    List.dropLast_singleton, List.nil_append, generate, Shape.size, vector, List.foldr_cons,
    List.foldr_nil, Nat.mul_one, entries, Option.some.injEq, mk.injEq, and_true]
  simp [lengthT, length]

namespace Penalty

variable [Scalar α] {mu y : Tensor α}

theorem exists_of_make {penalty : Penalty α} (made : make mu y = .ok penalty) :
    ∃ rows shift weighted, mu.shape.head? = some rows ∧ y.shape = [rows] ∧
      Vec.allPositive mu.entries = true ∧ mu.mulVector? y.entries = some shift ∧
      shift.mulVector? y.entries = some weighted ∧
      penalty = ⟨mu, y, shift, Scalar.half * Vec.total weighted.entries⟩ := by
  unfold make at made
  cases head : mu.shape.head? with
  | none =>
      rw [head] at made
      cases made
  | some rows =>
      rw [head] at made
      change (checkVectors rows [y.shape] >>= _) = _ at made
      obtain ⟨_, checked, made⟩ := exists_of_bind_eq_ok made
      cases positive : Vec.allPositive mu.entries with
      | false =>
          rw [positive] at made
          cases made
      | true =>
          rw [positive] at made
          cases shiftEq : mu.mulVector? y.entries with
          | none =>
              rw [shiftEq] at made
              cases made
          | some shift =>
              rw [shiftEq] at made
              simp only [Bool.not_true, Bool.false_eq_true, if_false, pure_bind] at made
              cases weightedEq : shift.mulVector? y.entries with
              | none =>
                  rw [weightedEq] at made
                  cases made
              | some weighted =>
                  rw [weightedEq] at made
                  cases made
                  exact ⟨rows, shift, weighted, rfl, shape_eq_of_check checked, rfl, rfl,
                    weightedEq, rfl⟩

/-- Penalty parameters and multipliers for `n` constraints. -/
def Admissible (n : Nat) (mu y : Tensor α) : Prop :=
  mu.shape = [n] ∧ y.shape = [n] ∧ Vec.allPositive mu.entries = true

instance (n : Nat) (mu y : Tensor α) : Decidable (Admissible n mu y) :=
  inferInstanceAs (Decidable (_ ∧ _ ∧ _))

/-- Penalty data with the derived terms that belong to them. -/
def ofVectors (mu y : Tensor α) : Penalty α where
  mu := mu
  y := y
  shift := .vector (Vec.mul mu.entries y.entries)
  offset := Scalar.half * Vec.total (Vec.mul (Vec.mul mu.entries y.entries) y.entries)

theorem fits_ofVectors {n : Nat} (admissible : Admissible n mu y) : (ofVectors mu y).Fits n where
  mu := admissible.1
  y := admissible.2.1
  shiftShape := by
    have lengthMu := Tensor.length_entries_of_shape admissible.1
    have lengthY := Tensor.length_entries_of_shape admissible.2.1
    simp [ofVectors, lengthMu, lengthY]
  positive := by
    intro m member
    have positive := admissible.2.2
    rw [Vec.allPositive, List.all_eq_true] at positive
    exact of_decide_eq_true (positive m member)
  shift := rfl
  offset := rfl

theorem make_of_admissible {n : Nat} (admissible : Admissible n mu y) :
    make mu y = .ok (ofVectors mu y) := by
  have shapeShift := (fits_ofVectors admissible).shiftShape
  change (Tensor.vector (Vec.mul mu.entries y.entries)).shape = [n] at shapeShift
  rcases admissible with ⟨shapeMu, shapeY, positive⟩
  have lengthY := Tensor.length_entries_of_shape shapeY
  simp only [make, shapeMu, shapeY, positive, Tensor.mulVector?_of_shape shapeMu lengthY,
    Tensor.mulVector?_of_shape shapeShift lengthY, List.head?_cons, pure_bind, checkVectors_self]
  rfl

theorem admissible_of_make {penalty : Penalty α} {n : Nat} (made : make mu y = .ok penalty)
    (shape : penalty.mu.shape = [n]) : Admissible n mu y := by
  obtain ⟨rows, shift, weighted, head, shapeY, positive, _, _, rfl⟩ := exists_of_make made
  change mu.shape = [n] at shape
  obtain rfl : n = rows := by simpa [shape] using head
  exact ⟨shape, shapeY, positive⟩

theorem eq_ofVectors_of_make {penalty : Penalty α} {n : Nat} (made : make mu y = .ok penalty)
    (shape : penalty.mu.shape = [n]) : penalty = ofVectors mu y := by
  rw [make_of_admissible (admissible_of_make made shape)] at made
  exact (Except.ok.inj made).symm

end Penalty

/-! ### Nodes -/

theorem Slack.builds [Scalar α] (base : Header α) (name : Option String) (ownsBase : Bool) :
    Eval.Builds (fun serial wrapper => { wrapper with serial := serial }) 1
      (fun wrapper : Wrapper α =>
        wrapper.header.nvar = base.nvar + base.ncon ∧ wrapper.header.ncon = base.ncon)
      (build base name ownsBase) := by
  apply Eval.Builds.ofExcept_bind
  intro header made
  exact .issue (⟨0, header, ownsBase⟩ : Wrapper α)
    (fun _ => .slacksAdded base.name header.ncon base.nvar header.nvar)
    (Header.dimensions_of_replace made rfl rfl)

theorem ProximalPoint.builds [Scalar α] (base : Header α) (step : α) (x0 y0 : Option (Tensor α))
    (name : Option String) (ownsBase : Bool) :
    Eval.Builds (fun serial node => { node with serial := serial }) 1
      (fun node : ProximalPoint α =>
        node.header.nvar = base.nvar ∧ node.header.ncon = base.ncon ∧ node.anchor.length = base.nvar)
      (build base step x0 y0 name ownsBase) := by
  unfold build Oracle.requirePositiveStep
  by_cases positive : 0 < step
  · rw [if_pos positive]
    show Eval.Builds _ _ _ (Eval.checkVectors base.nvar [(x0.getD (.vector base.x0)).shape] >>= _)
    apply Eval.Builds.check_bind
    intro anchor
    apply Eval.Builds.check_bind
    intro _
    apply Eval.Builds.ofExcept_bind
    intro header made
    have dimensions : header.nvar = base.nvar ∧ header.ncon = base.ncon :=
      Header.dimensions_of_replace made rfl rfl
    exact .issue (⟨⟨0, header, ownsBase⟩, step, (x0.getD (.vector base.x0)).entries⟩ : ProximalPoint α)
      (fun _ => .proximalPointBuilt base.name step)
      ⟨dimensions.1, dimensions.2, Tensor.length_entries_of_shape (anchor _ (by simp))⟩
  · rw [if_neg positive]
    exact .refused _ fun _ _ => rfl

/-- The node is the augmented Lagrangian that these arguments ask for. -/
structure AugmentedLagrangian.IsOf [Scalar α] (node : AugmentedLagrangian α) (base : Header α)
    (mu y : Tensor α) (name : Option String) (ownsBase : Bool) : Prop where
  constrained : base.isUnconstrained = false
  admissible : Penalty.Admissible base.ncon mu y
  header : base.replace {
    ncon := some 0
    y0 := some none
    name := some (Wrapper.derivedName base "-al" name) } = .ok node.header
  ownsBase : node.ownsBase = ownsBase
  penalty : node.initialPenalty = .ofVectors mu y

theorem AugmentedLagrangian.builds [Scalar α] (base : Header α) (mu y : Tensor α)
    (name : Option String) (ownsBase : Bool) :
    Eval.Builds (fun serial node => { node with serial := serial }) 1
      (fun node : AugmentedLagrangian α => node.IsOf base mu y name ownsBase)
      (build base mu y name ownsBase) := by
  dsimp only [build]
  apply Eval.Builds.refuse_if
  intro constrained
  apply Eval.Builds.ofExcept_bind
  intro penalty made
  apply Eval.Builds.check_bind
  intro checked
  apply Eval.Builds.ofExcept_bind
  intro header derived
  have shape : penalty.mu.shape = [base.ncon] := checked _ (by simp)
  exact .issue (⟨⟨0, header, ownsBase⟩, penalty⟩ : AugmentedLagrangian α) _ {
    constrained := by simpa using constrained
    admissible := Penalty.admissible_of_make made shape
    header := derived
    ownsBase := rfl
    penalty := Penalty.eq_ofVectors_of_make made shape }

theorem AugmentedLagrangian.IsOf.regular [Scalar α] {node : AugmentedLagrangian α}
    {base : Model α} {mu y : Tensor α} {name : Option String} {ownsBase : Bool}
    (isOf : node.IsOf base.header mu y name ownsBase) :
    (Model.augmentedLagrangian node base).Regular := by
  have dimensions : node.header.nvar = base.header.nvar ∧ node.header.ncon = 0 :=
    Header.dimensions_of_replace isOf.header rfl rfl
  refine ⟨dimensions.1, dimensions.2, ?_⟩
  rw [isOf.penalty]
  exact Penalty.fits_ofVectors isOf.admissible

/-- What was built is what was asked for, under the next serial number. -/
theorem AugmentedLagrangian.isOf_of_run_build [Scalar α] {node : AugmentedLagrangian α}
    {base : Header α} {mu y : Tensor α} {name : Option String} {ownsBase : Bool}
    {store started : Store α} (unrevised : store.Unrevised)
    (built : (build base mu y name ownsBase).run store = .ok node started) :
    node.IsOf base mu y name ownsBase ∧ node.serial = store.next ∧
      ∃ events, started = store.issue 1 events := by
  cases builds base mu y name ownsBase with
  | refused cause run =>
      rw [run _ unrevised] at built
      cases built
  | granted template events run isOf =>
      rw [run _ unrevised] at built
      cases built
      exact ⟨⟨isOf.constrained, isOf.admissible, isOf.header, isOf.ownsBase, isOf.penalty⟩, rfl,
        events store.next, rfl⟩

/-- Where one augmented Lagrangian was built, one with other admissible data can be built as well. -/
theorem AugmentedLagrangian.run_build [Scalar α] {node : AugmentedLagrangian α} {base : Header α}
    {mu y mu' y' : Tensor α} {name : Option String} {ownsBase : Bool}
    (isOf : node.IsOf base mu y name ownsBase) (admissible : Penalty.Admissible base.ncon mu' y')
    (store : Store α) :
    ∃ rebuilt events, (build base mu' y' name ownsBase).run store =
        .ok rebuilt (store.issue 1 events) ∧
      rebuilt.header = node.header ∧ rebuilt.serial = store.next ∧
        rebuilt.initialPenalty = .ofVectors mu' y' := by
  have shape : (Penalty.ofVectors mu' y').mu.shape = [base.ncon] := admissible.1
  refine ⟨⟨⟨store.next, node.header, ownsBase⟩, .ofVectors mu' y'⟩, ?_⟩
  unfold build
  rw [isOf.constrained, Penalty.make_of_admissible admissible, isOf.header]
  show ∃ events, (Eval.ofExcept (checkVectors base.ncon [(Penalty.ofVectors mu' y').mu.shape]) >>=
    _).run store = _ ∧ _
  rw [shape, checkVectors_self]
  exact ⟨_, rfl, rfl, rfl, rfl⟩

theorem Feasibility.builds [Scalar α] (base : Header α) (options : Options α)
    (name : Option String) (ownsBase : Bool) :
    Eval.Builds (fun serial node => { node with serial := serial }) 1
      (fun node : Feasibility α =>
        node.header.nvar = base.nvar ∧ node.header.ncon = 0 ∧
          node.center.length = base.nvar ∧ node.scaling.length = base.nvar)
      (build base options name ownsBase) := by
  dsimp only [build]
  apply Eval.Builds.check_bind
  intro shapes
  cases known : Loss.ofName? (options.loss.getD Loss.euclidSquared.name) with
  | none => exact .refused _ fun _ _ => rfl
  | some loss =>
      simp only [pure_bind]
      apply Eval.Builds.refuse_if
      intro _
      apply Eval.Builds.refuse_if
      intro _
      apply Eval.Builds.refuse_if
      intro _
      apply Eval.Builds.ofExcept_bind
      intro header made
      have dimensions : header.nvar = base.nvar ∧ header.ncon = 0 :=
        Header.dimensions_of_replace made rfl rfl
      exact .issue (⟨⟨0, header, ownsBase⟩, loss, _, _, _, _, _⟩ : Feasibility α) _
        ⟨dimensions.1, dimensions.2, Tensor.length_entries_of_shape (shapes _ (by simp)),
          Tensor.length_entries_of_shape (shapes _ (by simp))⟩

theorem Tailored.builds [Scalar α] (base : Header α) (changes : Header.Changes α)
    (constraintSet : Option (ConstraintSet α)) (term : Option (ProximableTerm α))
    (ownsBase : Bool) :
    Eval.Builds (fun serial node => { node with serial := serial }) 1
      (fun node : Tailored α => node.constraintSet = constraintSet ∧ node.term = term)
      (build base changes constraintSet term ownsBase) := by
  apply Eval.Builds.ofExcept_bind
  intro header _
  refine .granted ⟨⟨0, header, ownsBase⟩, constraintSet, term⟩ (fun _ => []) ?_ ⟨rfl, rfl⟩
  intro store _
  have unchanged : store.issue 1 [] = { store with next := store.next + 1 } := by
    simp [Store.issue]
  rw [unchanged]
  rfl

theorem BackendLeaf.builds [Scalar α] (backendSerial : Nat) (backend : Backend α)
    (name : Option String) (ownsBackend : Bool)
    (fills : backend.FillsBuffers backend.nvar.toNat backend.ncon.toNat) :
    Eval.Builds (fun serial leaf => { leaf with serial := serial }) 1
      (fun leaf : BackendLeaf α => (Model.backend leaf).Regular)
      (build backendSerial backend name ownsBackend) := by
  refine .get_bind (fun store unrevised => ?_) ?_
  · have current : store.currentBackend backendSerial backend = backend := by
      rw [Store.currentBackend, unrevised]
      rfl
    simp only [current]
    rfl
  · have current : ({} : Store α).currentBackend backendSerial backend = backend := rfl
    rw [current]
    apply Eval.Builds.ofExcept_bind
    intro header made
    apply Eval.Builds.check_bind
    intro variableShapes
    apply Eval.Builds.check_bind
    intro constraintShapes
    obtain ⟨nvar, ncon⟩ := Header.dimensions_of_make made
    rw [← nvar, ← ncon, Int.toNat_natCast, Int.toNat_natCast] at fills
    refine .issue (⟨0, header, backendSerial, backend,
      Box.ofBounds backend.lower.entries backend.upper.entries,
      Box.ofBounds backend.lowerCon.entries backend.upperCon.entries, ownsBackend⟩ : BackendLeaf α)
      (fun _ => .backendWrapped backend.name header.nvar header.ncon) ⟨fills, ?_, ?_⟩
    · have lower := Tensor.length_entries_of_shape (variableShapes backend.lower.shape (by simp))
      have upper := Tensor.length_entries_of_shape (variableShapes backend.upper.shape (by simp))
      simp [Box.ofBounds, lower, upper]
    · have lower := Tensor.length_entries_of_shape
        (constraintShapes backend.lowerCon.shape (by simp))
      have upper := Tensor.length_entries_of_shape
        (constraintShapes backend.upperCon.shape (by simp))
      simp [Box.ofBounds, lower, upper]

/-- The declared shape of a constraint map has room for its values. -/
def ConstraintMap.Consistent (constraintMap : ConstraintMap α) : Prop :=
  ∀ shape, constraintMap.declaredShape = some shape →
    shape.size = constraintMap.expressions.length

theorem ConstraintMap.consistent_of_undeclared {constraintMap : ConstraintMap α}
    (undeclared : constraintMap.declaredShape = none) : constraintMap.Consistent := by
  intro shape declared
  cases undeclared.symm.trans declared

theorem ConstraintMap.Consistent.length_of_shapeAt {constraintMap : ConstraintMap α}
    (consistent : constraintMap.Consistent) {point : Shape} {n : Nat}
    (shape : constraintMap.shapeAt point = [n]) : constraintMap.expressions.length = n := by
  unfold shapeAt at shape
  cases declared : constraintMap.declaredShape with
  | none =>
      rw [declared] at shape
      simp only [Option.getD_none, List.cons.injEq] at shape
      exact shape.1
  | some declaredShape =>
      rw [declared] at shape
      obtain rfl : declaredShape = [n] := shape
      simpa [Shape.size] using (consistent _ declared).symm

theorem ExpressionLeaf.builds [Elementary α] (objective : Expression α) (x0 : Tensor α)
    (constraints : Option (ConstraintMap α)) (y0 : Option (Tensor α)) (minimize : Bool)
    (name : String) (consistent : ∀ constraintMap ∈ constraints, constraintMap.Consistent) :
    Eval.Builds (fun _ leaf => leaf) 0
      (fun leaf : ExpressionLeaf α => leaf.constraints.length = leaf.header.ncon)
      (build objective x0 constraints y0 minimize name) := by
  have length : ∀ {n : Nat}, (constraints.getD .empty).shapeAt x0.shape = [n] →
      (constraints.getD .empty).expressions.length = n := by
    intro n shape
    refine ConstraintMap.Consistent.length_of_shapeAt ?_ shape
    cases constraints with
    | none => intro declared same; cases same
    | some constraintMap => exact consistent constraintMap rfl
  dsimp only [build]
  apply Eval.Builds.refuse_if
  intro _
  split
  · next ncon shape =>
      have made : ∀ {nvar : Nat} {y0 : Option (Tensor α)}, Eval.Builds (fun _ leaf => leaf) 0
          (fun leaf : ExpressionLeaf α => leaf.constraints.length = leaf.header.ncon) (do
            let header ← Eval.ofExcept (Header.make nvar ncon (some x0) y0 minimize name)
            Eval.record (.expressionsBuilt header.name header.nvar header.ncon)
            return ⟨header, objective, (constraints.getD .empty).expressions⟩) := by
        intro nvar y0
        apply Eval.Builds.ofExcept_bind
        intro header made
        refine .granted ⟨header, objective, (constraints.getD .empty).expressions⟩
          (fun _ => [.expressionsBuilt header.name header.nvar header.ncon]) (fun _ _ => rfl) ?_
        have dimension := (Header.dimensions_of_make made).2
        exact (length shape).trans (Int.ofNat.inj dimension).symm
      simp only [pure_bind]
      cases head : x0.shape.head? with
      | none =>
          cases y0 with
          | none => exact .refused _ fun _ _ => rfl
          | some y0 => exact .check_bind fun _ => .refused _ fun _ _ => rfl
      | some nvar =>
          cases y0 with
          | none => exact made
          | some y0 => exact .check_bind fun _ => made
  · exact .refused _ fun _ _ => rfl

/-! ### Models -/

namespace Model

/-- A model under another serial number. -/
def relabel (serial : Nat) : Model α → Model α
  | .backend leaf => .backend { leaf with serial := serial }
  | .expression leaf => .expression leaf
  | .slack node base => .slack { node with serial := serial } base
  | .proximalPoint node base => .proximalPoint { node with serial := serial } base
  | .augmentedLagrangian node base => .augmentedLagrangian { node with serial := serial } base
  | .feasibility node base => .feasibility { node with serial := serial } base
  | .tailored node base => .tailored { node with serial := serial } base

/-- The base of a reformulation. -/
def base? (model : Model α) : Option (Model α) := model.wrapped?.map Prod.snd

theorem serial?_relabel (serial : Nat) (model : Model α) :
    (model.relabel serial).serial? = model.serial?.map fun _ => serial := by
  cases model <;> rfl

theorem base?_relabel (serial : Nat) (model : Model α) :
    (model.relabel serial).base? = model.base? := by
  cases model <;> rfl

theorem regular_relabel [Scalar α] {serial : Nat} {model : Model α} (regular : model.Regular) :
    (model.relabel serial).Regular := by
  cases model <;> exact regular

end Model

/-- What can be built: a leaf on a backend that was handed in under a serial number, a leaf from
expressions, or a reformulation of a base. -/
inductive Construction (α : Type) where
  | ofBackend (backendSerial : Nat) (backend : Backend α) (name : Option String)
      (ownsBackend : Bool)
  | ofExpressions (objective : Expression α) (x0 : Tensor α)
      (constraints : Option (ConstraintMap α)) (y0 : Option (Tensor α)) (minimize : Bool)
      (name : String)
  | withSlacks (base : Model α) (name : Option String) (ownsBase : Bool)
  | proximalSubproblem (base : Model α) (step : α) (x0 y0 : Option (Tensor α))
      (name : Option String) (ownsBase : Bool)
  | augmented (base : Model α) (mu y : Tensor α) (name : Option String) (ownsBase : Bool)
  | feasibilityProblem (base : Model α) (options : Feasibility.Options α) (name : Option String)
      (ownsBase : Bool)
  | tailor (base : Model α) (changes : Header.Changes α) (constraintSet : Option (ConstraintSet α))
      (term : Option (ProximableTerm α)) (ownsBase : Bool)

namespace Construction

/-- Carry out a construction. -/
def build [Elementary α] : Construction α → Eval α (Model α)
  | .ofBackend backendSerial backend name ownsBackend =>
      Model.ofBackend backendSerial backend name ownsBackend
  | .ofExpressions objective x0 constraints y0 minimize name =>
      Model.ofExpressions objective x0 constraints y0 minimize name
  | .withSlacks base name ownsBase => base.withSlacks name ownsBase
  | .proximalSubproblem base step x0 y0 name ownsBase =>
      base.proximalSubproblem step x0 y0 name ownsBase
  | .augmented base mu y name ownsBase => base.augmented mu y name ownsBase
  | .feasibilityProblem base options name ownsBase =>
      base.feasibilityProblem options name ownsBase
  | .tailor base changes constraintSet term ownsBase =>
      base.tailor changes constraintSet term ownsBase

/-- The model that a construction starts from. -/
def base? : Construction α → Option (Model α)
  | .ofBackend .. | .ofExpressions .. => none
  | .withSlacks base .. | .proximalSubproblem base .. | .augmented base ..
  | .feasibilityProblem base .. | .tailor base .. => some base

/-- How many serial numbers a construction takes. -/
def serials : Construction α → Nat
  | .ofExpressions .. => 0
  | _ => 1

/-- What the callers promise. Backends, projections and proximal points that they supply have results of
the declared lengths, and values are arranged in a shape that has room for them. -/
def Admissible (construction : Construction α) : Prop :=
  match construction with
  | .ofBackend _ backend _ _ => backend.FillsBuffers backend.nvar.toNat backend.ncon.toNat
  | .ofExpressions _ _ constraints _ _ _ =>
      ∀ constraintMap ∈ constraints, constraintMap.Consistent
  | .tailor _ _ constraintSet term _ =>
      (∀ set ∈ constraintSet, set.KeepsLength) ∧ ∀ g ∈ term, g.KeepsLength
  | _ => True

/-- A model that was built has data that belong together, the base that it was built on, and a serial
number only if one was taken. -/
structure Gives [Scalar α] (construction : Construction α) (model : Model α) : Prop where
  regular : model.Regular
  base : model.base? = construction.base?
  serial : ∀ serial, model.serial? = some serial → construction.serials = 1

theorem builds [Elementary α] {construction : Construction α}
    (admissible : construction.Admissible) :
    Eval.Builds Model.relabel construction.serials construction.Gives construction.build := by
  cases construction with
  | ofBackend backendSerial backend name ownsBackend =>
      exact (BackendLeaf.builds backendSerial backend name ownsBackend admissible).map
        (fun _ _ => rfl) fun _ regular => ⟨regular, rfl, fun _ _ => rfl⟩
  | ofExpressions objective x0 constraints y0 minimize name =>
      exact (ExpressionLeaf.builds objective x0 constraints y0 minimize name admissible).map
        (fun _ _ => rfl) fun _ regular => ⟨regular, rfl, fun _ same => nomatch same⟩
  | withSlacks base name ownsBase =>
      exact (Slack.builds base.header name ownsBase).map
        (fun _ _ => rfl) fun _ regular => ⟨regular, rfl, fun _ _ => rfl⟩
  | proximalSubproblem base step x0 y0 name ownsBase =>
      exact (ProximalPoint.builds base.header step x0 y0 name ownsBase).map
        (fun _ _ => rfl) fun _ regular => ⟨regular, rfl, fun _ _ => rfl⟩
  | augmented base mu y name ownsBase =>
      exact (AugmentedLagrangian.builds base.header mu y name ownsBase).map
        (fun _ _ => rfl) fun node isOf => ⟨isOf.regular, rfl, fun _ _ => rfl⟩
  | feasibilityProblem base options name ownsBase =>
      exact (Feasibility.builds base.header options name ownsBase).map
        (fun _ _ => rfl) fun _ regular => ⟨regular, rfl, fun _ _ => rfl⟩
  | tailor base changes constraintSet term ownsBase =>
      rcases admissible with ⟨keepsSet, keepsTerm⟩
      refine (Tailored.builds base.header changes constraintSet term ownsBase).map
        (fun _ _ => rfl) fun node ⟨setEq, termEq⟩ => ⟨⟨?_, ?_⟩, rfl, fun _ _ => rfl⟩
      · intro set same
        exact keepsSet set (setEq.symm.trans same)
      · intro g same
        exact keepsTerm g (termEq.symm.trans same)

end Construction

end CompositeModels
