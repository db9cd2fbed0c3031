/-
Module: CompositeModels.Proofs.Construction.Validated
Purpose: What validation does for a construction, from every store and for all arguments. A construction
  validates everything before it takes a serial number or records anything, so one that is refused leaves
  the store as it was, and a model that is granted has a well-formed header, the base that was asked for,
  the next serial number and numbers that passed the checks.
Main exports: Header.WellFormed, Header.wellFormed_of_make, Eval.ValidatesAt, Event.isRelease,
  Store.Issues, Construction.Grants, Construction.validates_build, Feasibility.Checked,
  Model.Configured, Construction.validates_configuration
-/
import CompositeModels.Proofs.Construction

namespace CompositeModels

variable {α β γ : Type}

/-! ### Headers -/

/-- There is a variable, and the guesses have the declared lengths. -/
structure Header.WellFormed (header : Header α) : Prop where
  nvar : 1 ≤ header.nvar
  x0 : header.x0.length = header.nvar
  y0 : header.y0.length = header.ncon

/-- Headers are made through validation, so each of them is well-formed. -/
theorem Header.wellFormed_of_make [Scalar α] {nvar ncon : Int} {x0 y0 : Option (Tensor α)}
    {minimize : Bool} {name : String} {header : Header α}
    (made : make nvar ncon x0 y0 minimize name = .ok header) : header.WellFormed := by
  obtain ⟨nvarEq, nconEq⟩ := dimensions_of_make made
  unfold make at made
  by_cases invalid : nvar < 1 ∨ ncon < 0
  · rw [if_pos invalid] at made
    cases made
  · rw [if_neg invalid] at made
    obtain ⟨_, checkedX, made⟩ := exists_of_bind_eq_ok made
    obtain ⟨_, checkedY, made⟩ := exists_of_bind_eq_ok made
    rw [← nvarEq] at checkedX
    rw [← nconEq] at checkedY
    cases made
    have lengthX := Tensor.length_entries_of_shape (shape_eq_of_check checkedX)
    have lengthY := Tensor.length_entries_of_shape (shape_eq_of_check checkedY)
    simp only [] at nvarEq lengthX lengthY
    exact ⟨by simp only []; omega, lengthX, lengthY⟩

/-! ### Constructions -/

/-- From `store`, the computation fails and leaves the store as it was, or it gives a good value, with a
store that goes with it. -/
structure Eval.ValidatesAt (store : Store α) (good : β → Store α → Prop) (program : Eval α β) :
    Prop where
  clean : ∀ cause later, program.run store = .error cause later → later = store
  good : ∀ value later, program.run store = .ok value later → good value later

namespace Eval.ValidatesAt

variable {store : Store α} {good : β → Store α → Prop}

theorem throw {cause : Error α} : ValidatesAt store good (throw cause : Eval α β) where
  clean := by
    intro other later failed
    cases failed
    rfl
  good := by
    intro value later succeeded
    cases succeeded

/-- What always succeeds may change the store. -/
theorem of_ok {program : Eval α β} {value : β} {later : Store α}
    (succeeds : program.run store = .ok value later) (isGood : good value later) :
    ValidatesAt store good program where
  clean := by
    intro cause other failed
    cases succeeds.symm.trans failed
  good := by
    intro other last succeeded
    cases succeeds.symm.trans succeeded
    exact isGood

theorem ofExcept_bind {answer : Except (Error α) γ} {next : γ → Eval α β}
    (rest : ∀ value, answer = .ok value → ValidatesAt store good (next value)) :
    ValidatesAt store good (ofExcept answer >>= next) := by
  cases answer with
  | ok value => exact rest value rfl
  | error cause => exact throw

theorem get_bind {next : Store α → Eval α β} (rest : ValidatesAt store good (next store)) :
    ValidatesAt store good (get >>= next) :=
  ⟨rest.clean, rest.good⟩

/-- A condition under which the construction is refused. -/
theorem refuse_if {condition : Prop} {decided : Decidable condition} {cause : Error α}
    {next : PUnit → Eval α β} (rest : ¬ condition → ValidatesAt store good (next ⟨⟩)) :
    ValidatesAt store good
      (if condition then MonadExcept.throw cause >>= next else next ⟨⟩) := by
  split
  · exact throw
  · next accepted => exact rest accepted

/-- Packing a value changes nothing. -/
theorem map {program : Eval α β} {wrap : β → γ} {good' : γ → Store α → Prop}
    (validates : ValidatesAt store good program)
    (isGood : ∀ value later, good value later → good' (wrap value) later) :
    ValidatesAt store good' (do return wrap (← program)) := by
  cases run : program.run store with
  | ok value later => exact .of_ok (run_bind_of_ok run) (isGood _ _ (validates.good _ _ run))
  | error cause later =>
      constructor
      · intro other last failed
        rw [run_bind_of_error run] at failed
        cases failed
        exact validates.clean _ _ run
      · intro value last succeeded
        rw [run_bind_of_error run] at succeeded
        cases succeeded

end Eval.ValidatesAt

open Eval (ValidatesAt)

/-- Whether an event is the line of a closing. -/
def Event.isRelease : Event α → Bool
  | .baseReleased .. | .backendReleased .. => true
  | _ => false

/-- Serial numbers were handed out and events were recorded, and no closing is among the events. -/
def Store.Issues (before : Store α) (count : Nat) (after : Store α) : Prop :=
  ∃ events, (∀ event ∈ events, event.isRelease = false) ∧ after = before.issue count events

theorem Store.Issues.next {before after : Store α} {count : Nat} (issues : before.Issues count after) :
    after.next = before.next + count := by
  obtain ⟨_, _, rfl⟩ := issues
  rfl

theorem Store.Issues.none {before : Store α} {count : Nat} :
    before.Issues count { before with next := before.next + count } := by
  refine ⟨[], fun recorded inside => ?_, by simp [issue]⟩
  cases inside

theorem Store.Issues.one {before : Store α} {count : Nat} {event : Event α}
    (other : event.isRelease = false) : before.Issues count (before.issue count [event]) := by
  refine ⟨[event], fun recorded inside => ?_, rfl⟩
  rw [List.mem_singleton.1 inside]
  exact other

/-- A header is well-formed, the serial number that goes with it is the one that was next, and something
may have been recorded. -/
structure Header.GrantedAt (store : Store α) (serial : Nat) (header : Header α) (later : Store α) :
    Prop where
  wellFormed : header.WellFormed
  serial : serial = store.next
  issues : store.Issues 1 later

theorem Header.GrantedAt.of_make [Scalar α] {store later : Store α} {nvar ncon : Int}
    {x0 y0 : Option (Tensor α)} {minimize : Bool} {name : String} {header : Header α}
    (made : make nvar ncon x0 y0 minimize name = .ok header) (issues : store.Issues 1 later) :
    header.GrantedAt store store.next later :=
  ⟨wellFormed_of_make made, rfl, issues⟩

variable {store : Store α}

theorem BackendLeaf.validates_build [Scalar α] (backendSerial : Nat) (backend : Backend α)
    (name : Option String) (ownsBackend : Bool) :
    ValidatesAt store (fun leaf : BackendLeaf α => leaf.header.GrantedAt store leaf.serial)
      (build backendSerial backend name ownsBackend) := by
  refine .get_bind (.ofExcept_bind fun header made => ?_)
  exact .ofExcept_bind fun _ _ => .ofExcept_bind fun _ _ =>
    .of_ok rfl (.of_make made (.one rfl))

theorem ExpressionLeaf.validates_build [Elementary α] (objective : Expression α) (x0 : Tensor α)
    (constraints : Option (ConstraintMap α)) (y0 : Option (Tensor α)) (minimize : Bool)
    (name : String) :
    ValidatesAt store
      (fun (leaf : ExpressionLeaf α) later => leaf.header.WellFormed ∧ store.Issues 0 later)
      (build objective x0 constraints y0 minimize name) := by
  have made : ∀ {nvar ncon : Nat} {y0 : Option (Tensor α)},
      ValidatesAt store
        (fun (leaf : ExpressionLeaf α) later => leaf.header.WellFormed ∧ store.Issues 0 later) (do
        let header ← Eval.ofExcept (Header.make nvar ncon (some x0) y0 minimize name)
        Eval.record (.expressionsBuilt header.name header.nvar header.ncon)
        return ⟨header, objective, (constraints.getD .empty).expressions⟩) :=
    .ofExcept_bind fun _ made => .of_ok rfl ⟨Header.wellFormed_of_make made, .one rfl⟩
  dsimp only [build]
  apply ValidatesAt.refuse_if
  intro _
  split
  · simp only [pure_bind]
    cases head : x0.shape.head? with
    | none =>
        cases y0 with
        | none => exact .throw
        | some y0 => exact .ofExcept_bind fun _ _ => .throw
    | some nvar =>
        cases y0 with
        | none => exact made
        | some y0 => exact .ofExcept_bind fun _ _ => made
  · exact .throw

theorem Slack.validates_build [Scalar α] (base : Header α) (name : Option String)
    (ownsBase : Bool) :
    ValidatesAt store (fun wrapper : Wrapper α => wrapper.header.GrantedAt store wrapper.serial)
      (build base name ownsBase) :=
  .ofExcept_bind fun _ made => .of_ok rfl (.of_make made (.one rfl))

theorem ProximalPoint.validates_build [Scalar α] (base : Header α) (step : α)
    (x0 y0 : Option (Tensor α)) (name : Option String) (ownsBase : Bool) :
    ValidatesAt store
      (fun (node : ProximalPoint α) later =>
        node.header.GrantedAt store node.serial later ∧ 0 < node.step)
      (build base step x0 y0 name ownsBase) := by
  unfold build Oracle.requirePositiveStep
  split
  · next positive =>
      show ValidatesAt store _ (Eval.ofExcept _ >>= _)
      refine .ofExcept_bind fun _ _ => .ofExcept_bind fun _ _ => ?_
      exact .ofExcept_bind fun _ made => .of_ok rfl ⟨.of_make made (.one rfl), positive⟩
  · exact .throw

theorem AugmentedLagrangian.validates_build [Scalar α] (base : Header α) (mu y : Tensor α)
    (name : Option String) (ownsBase : Bool) :
    ValidatesAt store (fun node : AugmentedLagrangian α => node.header.GrantedAt store node.serial)
      (build base mu y name ownsBase) := by
  dsimp only [build]
  apply ValidatesAt.refuse_if
  intro _
  refine .ofExcept_bind fun _ _ => .ofExcept_bind fun _ _ => ?_
  exact .ofExcept_bind fun _ made => .of_ok rfl (.of_make made (.one rfl))

/-- What is checked of the numbers of a feasibility problem. None of them is undefined. -/
structure Feasibility.Checked [Scalar α] (node : Feasibility α) : Prop where
  weight : 0 ≤ node.weight
  scaling : Vec.allNonnegative node.scaling = true
  threshold : 0 < node.huber.threshold
  scale : 0 < node.huber.scale

theorem Feasibility.validates_build [Scalar α] (base : Header α) (options : Options α)
    (name : Option String) (ownsBase : Bool) :
    ValidatesAt store
      (fun (node : Feasibility α) later =>
        node.header.GrantedAt store node.serial later ∧ node.Checked)
      (build base options name ownsBase) := by
  dsimp only [build]
  apply ValidatesAt.ofExcept_bind
  intro _ _
  split
  · simp only [pure_bind]
    apply ValidatesAt.refuse_if
    intro weight
    apply ValidatesAt.refuse_if
    intro scaling
    apply ValidatesAt.refuse_if
    intro huber
    have huber := Decidable.not_not.1 huber
    exact .ofExcept_bind fun _ made => .of_ok rfl ⟨.of_make made (.one rfl), {
      weight := Decidable.not_not.1 weight
      scaling := by simpa using scaling
      threshold := huber.1
      scale := huber.2 }⟩
  · exact .throw

theorem Tailored.validates_build [Scalar α] (base : Header α) (changes : Header.Changes α)
    (constraintSet : Option (ConstraintSet α)) (term : Option (ProximableTerm α))
    (ownsBase : Bool) :
    ValidatesAt store (fun node : Tailored α => node.header.GrantedAt store node.serial)
      (build base changes constraintSet term ownsBase) :=
  .ofExcept_bind fun _ made => .of_ok rfl (.of_make made .none)

/-- A model that was granted: it has a well-formed header and the base that it was asked for, and a serial
number of its own was taken for it. It may have been recorded that it was built, and that is all. -/
structure Construction.Grants (construction : Construction α) (store : Store α) (model : Model α)
    (later : Store α) : Prop where
  wellFormed : model.header.WellFormed
  base : model.base? = construction.base?
  serial : ∀ serial, model.serial? = some serial →
    serial = store.next ∧ later.next = store.next + 1
  issues : ∃ count, store.Issues count later

theorem Header.GrantedAt.grants {construction : Construction α} {model : Model α} {header : Header α}
    {serial : Nat} {later : Store α} (granted : header.GrantedAt store serial later)
    (sameHeader : model.header = header) (base : model.base? = construction.base?)
    (known : model.serial? = some serial) : construction.Grants store model later where
  wellFormed := sameHeader ▸ granted.wellFormed
  base := base
  serial := by
    intro number same
    cases known.symm.trans same
    exact ⟨granted.serial, granted.issues.next⟩
  issues := ⟨1, granted.issues⟩

/-- A construction that is refused leaves the store as it was, and one that is granted gives a model with
a well-formed header, whatever it was asked for. -/
theorem Construction.validates_build [Elementary α] (construction : Construction α)
    (store : Store α) : ValidatesAt store (construction.Grants store) construction.build := by
  cases construction with
  | ofBackend backendSerial backend name ownsBackend =>
      exact (BackendLeaf.validates_build backendSerial backend name ownsBackend).map
        fun _ _ granted => granted.grants rfl rfl rfl
  | ofExpressions objective x0 constraints y0 minimize name =>
      refine (ExpressionLeaf.validates_build objective x0 constraints y0 minimize name).map
        fun _ _ ⟨wellFormed, issues⟩ => ⟨wellFormed, rfl, fun _ same => ?_, 0, issues⟩
      cases same
  | withSlacks base name ownsBase =>
      exact (Slack.validates_build base.header name ownsBase).map
        fun _ _ granted => granted.grants rfl rfl rfl
  | proximalSubproblem base step x0 y0 name ownsBase =>
      exact (ProximalPoint.validates_build base.header step x0 y0 name ownsBase).map
        fun _ _ ⟨granted, _⟩ => granted.grants rfl rfl rfl
  | augmented base mu y name ownsBase =>
      exact (AugmentedLagrangian.validates_build base.header mu y name ownsBase).map
        fun _ _ granted => granted.grants rfl rfl rfl
  | feasibilityProblem base options name ownsBase =>
      exact (Feasibility.validates_build base.header options name ownsBase).map
        fun _ _ ⟨granted, _⟩ => granted.grants rfl rfl rfl
  | tailor base changes constraintSet term ownsBase =>
      exact (Tailored.validates_build base.header changes constraintSet term ownsBase).map
        fun _ _ granted => granted.grants rfl rfl rfl

/-- The numbers that a model was built with passed the checks of its constructor. -/
def Model.Configured [Scalar α] : Model α → Prop
  | .proximalPoint node _ => 0 < node.step
  | .feasibility node _ => node.Checked
  | _ => True

/-- A model that is granted has numbers that passed the checks. -/
theorem Construction.validates_configuration [Elementary α] (construction : Construction α)
    (store : Store α) : ValidatesAt store (fun model _ => model.Configured) construction.build := by
  cases construction with
  | ofBackend backendSerial backend name ownsBackend =>
      exact (BackendLeaf.validates_build backendSerial backend name ownsBackend).map
        fun _ _ _ => trivial
  | ofExpressions objective x0 constraints y0 minimize name =>
      exact (ExpressionLeaf.validates_build objective x0 constraints y0 minimize name).map
        fun _ _ _ => trivial
  | withSlacks base name ownsBase =>
      exact (Slack.validates_build base.header name ownsBase).map fun _ _ _ => trivial
  | proximalSubproblem base step x0 y0 name ownsBase =>
      exact (ProximalPoint.validates_build base.header step x0 y0 name ownsBase).map
        fun _ _ validated => validated.2
  | augmented base mu y name ownsBase =>
      exact (AugmentedLagrangian.validates_build base.header mu y name ownsBase).map
        fun _ _ _ => trivial
  | feasibilityProblem base options name ownsBase =>
      exact (Feasibility.validates_build base.header options name ownsBase).map
        fun _ _ validated => validated.2
  | tailor base changes constraintSet term ownsBase =>
      exact (Tailored.validates_build base.header changes constraintSet term ownsBase).map
        fun _ _ _ => trivial

end CompositeModels
