/-
Module: CompositeModels.Proofs.Closing
Purpose: What closing one model does. A model holds its base if it owns it, and whatever the base holds.
  A closing walks down what a model holds until it meets something closed. Where all that lies below a
  closed model is closed, this reaches everything that is open, and each part that is still open is
  released once, from the top down.
Main exports: Model.Holds, Model.chain, Model.mem_chain, Model.releaseLine?, Model.closesBackend,
  Model.isClosed, Model.isOpen, Store.Releases, Model.SettledIn, Model.releases_close,
  Model.isClosed_close_self
-/
import CompositeModels.Model.Closing
import CompositeModels.Proofs.Frame

namespace CompositeModels

variable {α : Type}

namespace Model

/-! ### Layers -/

/-- A model is a leaf on a backend, a leaf from expressions, or a layer on a base. -/
@[elab_as_elim]
theorem layers_induction {motive : Model α → Prop} (backend : ∀ leaf, motive (.backend leaf))
    (expression : ∀ leaf, motive (.expression leaf))
    (layer : ∀ model node base, model.wrapped? = some (node, base) → motive base → motive model)
    (model : Model α) : motive model := by
  induction model with
  | backend leaf => exact backend leaf
  | expression leaf => exact expression leaf
  | slack node base ih => exact layer _ node base rfl ih
  | proximalPoint node base ih => exact layer _ node.toWrapper base rfl ih
  | augmentedLagrangian node base ih => exact layer _ node.toWrapper base rfl ih
  | feasibility node base ih => exact layer _ node.toWrapper base rfl ih
  | tailored node base ih => exact layer _ node.toWrapper base rfl ih

section Layer

variable {model base : Model α} {node : Wrapper α} (wrapped : model.wrapped? = some (node, base))
include wrapped

theorem serial?_of_wrapped : model.serial? = some node.serial := by
  cases model <;> cases wrapped <;> rfl

theorem close_of_wrapped (store : Store α) :
    model.close store = node.close base.header base.close store := by
  cases model <;> cases wrapped <;> rfl

theorem sizeOf_base_lt : sizeOf base < sizeOf model := by
  cases model <;> cases wrapped <;>
    simp only [slack.sizeOf_spec, proximalPoint.sizeOf_spec, augmentedLagrangian.sizeOf_spec,
      feasibility.sizeOf_spec, tailored.sizeOf_spec] <;> omega

end Layer

/-! ### What a model holds -/

/-- A model holds itself, and what is held by a base that it owns. -/
inductive Holds : Model α → Model α → Prop where
  | self (model : Model α) : Holds model model
  | owned {model base held : Model α} {node : Wrapper α}
      (wrapped : model.wrapped? = some (node, base)) (owns : node.ownsBase = true)
      (holds : Holds base held) : Holds model held

theorem Holds.trans {top middle bottom : Model α} (first : top.Holds middle)
    (second : middle.Holds bottom) : top.Holds bottom := by
  induction first with
  | self => exact second
  | owned wrapped owns _ ih => exact .owned wrapped owns (ih second)

theorem Holds.sizeOf_le {model held : Model α} (holds : model.Holds held) :
    sizeOf held ≤ sizeOf model := by
  induction holds with
  | self => exact Nat.le_refl _
  | owned wrapped _ _ ih =>
      have smaller := sizeOf_base_lt wrapped
      omega

/-- What a model holds, from the top down. -/
def chain : Model α → List (Model α)
  | .backend leaf => [.backend leaf]
  | .expression leaf => [.expression leaf]
  | .slack node base => .slack node base :: if node.ownsBase then base.chain else []
  | .proximalPoint node base => .proximalPoint node base :: if node.ownsBase then base.chain else []
  | .augmentedLagrangian node base =>
      .augmentedLagrangian node base :: if node.ownsBase then base.chain else []
  | .feasibility node base => .feasibility node base :: if node.ownsBase then base.chain else []
  | .tailored node base => .tailored node base :: if node.ownsBase then base.chain else []

theorem chain_of_wrapped {model base : Model α} {node : Wrapper α}
    (wrapped : model.wrapped? = some (node, base)) :
    model.chain = model :: if node.ownsBase then base.chain else [] := by
  cases model <;> cases wrapped <;> rfl

theorem self_mem_chain (model : Model α) : model ∈ model.chain := by
  cases model <;> exact .head _

theorem mem_chain {model held : Model α} : held ∈ model.chain ↔ model.Holds held := by
  constructor
  · induction model using layers_induction with
    | backend leaf =>
        intro inside
        rw [List.mem_singleton.1 inside]
        exact .self _
    | expression leaf =>
        intro inside
        rw [List.mem_singleton.1 inside]
        exact .self _
    | layer model node base wrapped ih =>
        intro inside
        rw [chain_of_wrapped wrapped] at inside
        rcases List.mem_cons.1 inside with rfl | inside
        · exact .self _
        · by_cases owns : node.ownsBase = true
          · rw [if_pos owns] at inside
            exact .owned wrapped owns (ih inside)
          · rw [if_neg owns] at inside
            cases inside
  · intro holds
    induction holds with
    | self model => exact model.self_mem_chain
    | owned wrapped owns _ ih =>
        rw [chain_of_wrapped wrapped, if_pos owns]
        exact .tail _ ih

theorem nodup_chain (model : Model α) : model.chain.Nodup := by
  induction model using layers_induction with
  | backend leaf => simp [chain]
  | expression leaf => simp [chain]
  | layer model node base wrapped ih =>
      rw [chain_of_wrapped wrapped, List.nodup_cons]
      by_cases owns : node.ownsBase = true
      · rw [if_pos owns]
        refine ⟨fun inside => ?_, ih⟩
        have smaller := sizeOf_base_lt wrapped
        have notSmaller := (mem_chain.1 inside).sizeOf_le
        omega
      · rw [if_neg owns]
        exact ⟨List.not_mem_nil, List.nodup_nil⟩

end Model

/-- What a model holds is among the models that it was built with. -/
theorem Lineage.mem_of_holds {models : List (Model α)} (lineage : Lineage models)
    {model held : Model α} (member : model ∈ models) (holds : model.Holds held) : held ∈ models := by
  induction holds with
  | self => exact member
  | owned wrapped _ _ ih => exact ih (lineage.bases member wrapped)

/-- Serial numbers are distinct, so a model is held if its serial number is found. -/
theorem Lineage.holds_iff_serial {models : List (Model α)} (lineage : Lineage models)
    {model held : Model α} {serial : Nat} (member : model ∈ models) (heldMember : held ∈ models)
    (known : held.serial? = some serial) :
    (∃ other ∈ model.chain, other.serial? = some serial) ↔ model.Holds held := by
  constructor
  · rintro ⟨other, inside, otherKnown⟩
    have otherMember := lineage.mem_of_holds member (Model.mem_chain.1 inside)
    have same : other = held := lineage.distinct otherMember heldMember otherKnown known
    exact Model.mem_chain.1 (same ▸ inside)
  · exact fun holds => ⟨held, Model.mem_chain.2 holds, known⟩

/-! ### What closing records and counts -/

namespace Model

/-- The line that is recorded when a model is closed: a layer that owns its base releases it, and a leaf
that owns its backend releases that, if there is something to release. -/
def releaseLine? (model : Model α) : Option (Event α) :=
  match model with
  | .backend leaf =>
      if leaf.ownsBackend && leaf.backend.closable then some (.backendReleased leaf.backend.name)
      else none
  | model => model.wrapped?.bind fun (node, base) =>
      if node.ownsBase then some (.baseReleased node.header.name base.header.name) else none

/-- The model is a leaf that closes the backend with this serial number when it is closed. -/
def closesBackend (backend : Nat) : Model α → Bool
  | .backend leaf =>
      leaf.backendSerial == backend && (leaf.ownsBackend && leaf.backend.closable)
  | _ => false

/-- The model was closed. -/
def isClosed (store : Store α) (model : Model α) : Bool := model.serial?.any store.isClosed

/-- The model can be closed and was not closed yet. -/
def isOpen (store : Store α) (model : Model α) : Bool := model.serial?.any (!store.isClosed ·)

section Layer

variable {model base : Model α} {node : Wrapper α} (wrapped : model.wrapped? = some (node, base))
include wrapped

theorem releaseLine?_of_wrapped : model.releaseLine? =
    if node.ownsBase then some (.baseReleased node.header.name base.header.name) else none := by
  cases model <;> cases wrapped <;> rfl

theorem closesBackend_of_wrapped (backend : Nat) : model.closesBackend backend = false := by
  cases model <;> cases wrapped <;> rfl

end Layer

/-- A leaf that closes a backend can be closed itself. -/
theorem exists_serial_of_closesBackend {model : Model α} {backend : Nat}
    (closes : model.closesBackend backend = true) : ∃ serial, model.serial? = some serial := by
  cases model using layers_induction with
  | backend leaf => exact ⟨leaf.serial, rfl⟩
  | expression leaf => cases closes
  | layer model node base wrapped _ => exact ⟨node.serial, serial?_of_wrapped wrapped⟩

theorem isClosed_eq_true_iff {store : Store α} {model : Model α} :
    model.isClosed store = true ↔ ∃ serial, model.serial? = some serial ∧
      store.isClosed serial = true := by
  simp [isClosed, Option.any_eq_true]

theorem isOpen_eq_false_iff {store : Store α} {model : Model α} :
    model.isOpen store = false ↔
      ∀ serial, model.serial? = some serial → store.isClosed serial = true := by
  unfold isOpen
  cases model.serial? <;> simp

theorem isOpen_eq_true_iff {store : Store α} {model : Model α} :
    model.isOpen store = true ↔ ∃ serial, model.serial? = some serial ∧
      store.isClosed serial = false := by
  simp [isOpen, Option.any_eq_true]

theorem isOpen_eq_false_of_isClosed {store : Store α} {model : Model α}
    (closed : model.isClosed store = true) : model.isOpen store = false := by
  obtain ⟨serial, known, isClosed⟩ := isClosed_eq_true_iff.1 closed
  refine isOpen_eq_false_iff.2 fun other otherKnown => ?_
  cases known.symm.trans otherKnown
  exact isClosed

/-- Whether a model is open depends on its own serial number only. -/
theorem isOpen_congr {first second : Store α} {model : Model α}
    (same : ∀ serial, model.serial? = some serial → first.isClosed serial = second.isClosed serial) :
    model.isOpen first = model.isOpen second := by
  unfold isOpen
  cases known : model.serial? with
  | none => rfl
  | some serial => simp [same serial known]

end Model

/-! ### Stores -/

namespace Store

@[simp] theorem isClosed_markClosed (store : Store α) (model serial : Nat) :
    (store.markClosed model).isClosed serial = true ↔
      store.isClosed serial = true ∨ serial = model := by
  by_cases same : serial = model
  · subst same
    simp [isClosed, markClosed]
  · simp [isClosed, markClosed, Table.get?_set_of_ne _ _ same, same]

@[simp] theorem isClosed_record (store : Store α) (event : Event α) (serial : Nat) :
    (store.record event).isClosed serial = store.isClosed serial := rfl

@[simp] theorem isClosed_setTally (store : Store α) (backend : Nat) (tally : Tally) (serial : Nat) :
    (store.setTally backend tally).isClosed serial = store.isClosed serial := rfl

end Store

namespace Model

/-- Closing hands out no serial numbers. -/
theorem next_close (model : Model α) (store : Store α) : (model.close store).next = store.next := by
  induction model using layers_induction generalizing store with
  | backend leaf =>
      simp only [close, BackendLeaf.close]
      split
      · rfl
      · split <;> rfl
  | expression leaf => rfl
  | layer model node base wrapped ih =>
      rw [close_of_wrapped wrapped, Wrapper.close]
      split
      · rfl
      · split
        · exact ih _
        · rfl

/-- What is closed stays closed. -/
theorem isClosed_close_of_isClosed (model : Model α) {store : Store α} {serial : Nat}
    (closed : store.isClosed serial = true) : (model.close store).isClosed serial = true := by
  induction model using layers_induction generalizing store with
  | backend leaf =>
      simp only [close, BackendLeaf.close]
      split
      · exact closed
      · split <;> simp [closed]
  | expression leaf => exact closed
  | layer model node base wrapped ih =>
      rw [close_of_wrapped wrapped, Wrapper.close]
      split
      · exact closed
      · split
        · exact ih (by simp [closed])
        · simp [closed]

/-- A model that was closed is closed. -/
theorem isClosed_close_self (model : Model α) (store : Store α) {serial : Nat}
    (known : model.serial? = some serial) : (model.close store).isClosed serial = true := by
  induction model using layers_induction with
  | backend leaf =>
      cases known
      simp only [close, BackendLeaf.close]
      split
      · assumption
      · split <;> simp
  | expression leaf => cases known
  | layer model node base wrapped ih =>
      rw [serial?_of_wrapped wrapped] at known
      cases known
      rw [close_of_wrapped wrapped, Wrapper.close]
      split
      · assumption
      · split
        · exact base.isClosed_close_of_isClosed (by simp)
        · simp

end Model

/-! ### One closing -/

/-- What has happened when some models were closed, one after the other: each is closed, and each that was
open has recorded its line and closed its backend once. -/
structure Store.Releases (before after : Store α) (reached : List (Model α)) : Prop where
  isClosed : ∀ serial, after.isClosed serial = true ↔
    before.isClosed serial = true ∨ ∃ held ∈ reached, held.serial? = some serial
  log : after.log = before.log ++ (reached.filter (·.isOpen before)).filterMap Model.releaseLine?
  closings : ∀ backend, (after.tally backend).closed = (before.tally backend).closed +
    (reached.filter (·.isOpen before)).countP (·.closesBackend backend)

namespace Store.Releases

/-- Nothing happens to models that are not open. -/
theorem of_none_open {store : Store α} {reached : List (Model α)}
    (none : ∀ held ∈ reached, held.isOpen store = false) : store.Releases store reached := by
  have nothing : reached.filter (·.isOpen store) = [] :=
    List.filter_eq_nil_iff.2 fun held inside => by simp [none held inside]
  refine ⟨fun serial => ⟨.inl, ?_⟩, by simp [nothing], by simp [nothing]⟩
  rintro (before | ⟨held, inside, known⟩)
  · exact before
  · exact Model.isOpen_eq_false_iff.1 (none held inside) serial known

/-- Closing some models and then others, if the first closing leaves the others as open as they were. -/
theorem append {before middle after : Store α} {first second : List (Model α)}
    (releasesFirst : before.Releases middle first) (releasesSecond : middle.Releases after second)
    (apart : ∀ held ∈ second, held.isOpen middle = held.isOpen before) :
    before.Releases after (first ++ second) := by
  have same : second.filter (·.isOpen middle) = second.filter (·.isOpen before) :=
    List.filter_congr apart
  constructor
  · intro serial
    rw [releasesSecond.isClosed, releasesFirst.isClosed, or_assoc]
    simp only [List.mem_append, or_and_right, exists_or]
  · rw [releasesSecond.log, releasesFirst.log, same, List.filter_append, List.filterMap_append,
      List.append_assoc]
  · intro backend
    rw [releasesSecond.closings, releasesFirst.closings, same, List.filter_append,
      List.countP_append, Nat.add_assoc]

/-- Closing one model that is open. -/
theorem singleton {before after : Store α} {model : Model α} {serial : Nat}
    (known : model.serial? = some serial) (isOpen : before.isClosed serial = false)
    (isClosed : ∀ other, after.isClosed other = true ↔ before.isClosed other = true ∨ other = serial)
    (log : after.log = before.log ++ model.releaseLine?.toList)
    (closings : ∀ backend, (after.tally backend).closed =
      (before.tally backend).closed + (model.closesBackend backend).toNat) :
    before.Releases after [model] := by
  have pending : [model].filter (·.isOpen before) = [model] := by
    simp [Model.isOpen, known, isOpen]
  refine ⟨?_, ?_, ?_⟩
  · intro other
    have reached : (∃ held ∈ [model], held.serial? = some other) ↔ other = serial := by
      simp only [List.mem_singleton, exists_eq_left, known, Option.some.injEq]
      exact eq_comm
    rw [isClosed, reached]
  · rw [log, pending]
    cases line : model.releaseLine? <;> simp [line]
  · intro backend
    rw [closings, pending]
    cases closes : model.closesBackend backend <;> simp [closes]

end Store.Releases

/-- An open leaf is closed, and its backend once if the leaf owns it. -/
theorem BackendLeaf.releases_close (leaf : BackendLeaf α) {store : Store α}
    (isOpen : store.isClosed leaf.serial = false) :
    store.Releases (leaf.close store) [.backend leaf] := by
  simp only [BackendLeaf.close, isOpen, Bool.false_eq_true, if_false]
  by_cases owns : (leaf.ownsBackend && leaf.backend.closable) = true
  · rw [if_pos owns]
    have line : (Model.backend leaf).releaseLine? = some (.backendReleased leaf.backend.name) :=
      if_pos owns
    have closes : ∀ backend, (Model.backend leaf).closesBackend backend =
        (leaf.backendSerial == backend) := by
      intro backend
      rw [Model.closesBackend, owns, Bool.and_true]
    refine .singleton rfl isOpen (fun other => by simp) (by rw [line]; rfl) fun backend => ?_
    rw [closes]
    by_cases same : backend = leaf.backendSerial
    · subst same
      simp [Tally.recordClosing]
      rfl
    · have different : (leaf.backendSerial == backend) = false := by simpa using Ne.symm same
      rw [Store.tally_setTally_of_ne _ _ same, different]
      rfl
  · rw [if_neg owns]
    have line : (Model.backend leaf).releaseLine? = none := if_neg owns
    have closes : ∀ backend, (Model.backend leaf).closesBackend backend = false := by
      intro backend
      rw [Model.closesBackend, Bool.eq_false_iff.2 owns, Bool.and_false]
    refine .singleton rfl isOpen (fun other => by simp) ?_ fun backend => ?_
    · rw [line]
      exact (List.append_nil _).symm
    · rw [closes]
      rfl

/-- The store in which a layer is closed and has named the base that it is about to close. -/
def Wrapper.releasing (node : Wrapper α) (base : Header α) (store : Store α) : Store α :=
  (store.markClosed node.serial).record (.baseReleased node.header.name base.name)

/-- An open layer is closed, and names its base if it owns it. -/
theorem Model.releases_layer {model base : Model α} {node : Wrapper α}
    (wrapped : model.wrapped? = some (node, base)) {store : Store α}
    (isOpen : store.isClosed node.serial = false) :
    store.Releases
      (if node.ownsBase then node.releasing base.header store else store.markClosed node.serial)
      [model] := by
  have line := releaseLine?_of_wrapped wrapped
  refine .singleton (serial?_of_wrapped wrapped) isOpen ?_ ?_ ?_
  · intro other
    split <;> simp [Wrapper.releasing]
  · rw [line]
    split
    · rfl
    · exact (List.append_nil _).symm
  · intro backend
    rw [closesBackend_of_wrapped wrapped]
    split <;> rfl

namespace Model

/-- Whatever a model holds: if it is closed, then nothing that it holds in turn is open. -/
def SettledIn (store : Store α) (model : Model α) : Prop :=
  ∀ {held below}, model.Holds held → held.isClosed store = true → held.Holds below →
    below.isOpen store = false

theorem SettledIn.none_open {store : Store α} {model : Model α} (settled : model.SettledIn store)
    {serial : Nat} (known : model.serial? = some serial) (closed : store.isClosed serial = true) :
    ∀ held ∈ model.chain, held.isOpen store = false := by
  intro held inside
  exact settled (.self model) (isClosed_eq_true_iff.2 ⟨serial, known, closed⟩) (mem_chain.1 inside)

section Owned

variable {model base : Model α} {node : Wrapper α} (wrapped : model.wrapped? = some (node, base))
  (owns : node.ownsBase = true)
include wrapped owns

/-- A layer is not among what its base holds, so nothing there has its serial number. -/
theorem isClosed_releasing {models : List (Model α)} (lineage : Lineage models)
    (member : model ∈ models) (store : Store α) {held : Model α} (holds : base.Holds held) (serial : Nat)
    (known : held.serial? = some serial) :
    (node.releasing base.header store).isClosed serial = store.isClosed serial := by
  have apart : serial ≠ node.serial := by
    rintro rfl
    have heldMember : held ∈ models := lineage.mem_of_holds member (.owned wrapped owns holds)
    have same : held = model :=
      lineage.distinct heldMember member known (serial?_of_wrapped wrapped)
    have smaller := sizeOf_base_lt wrapped
    have notSmaller := holds.sizeOf_le
    rw [same] at notSmaller
    omega
  rw [Bool.eq_iff_iff]
  simp [Wrapper.releasing, apart]

/-- Below a layer that is being closed, everything is as settled as it was. -/
theorem SettledIn.releasing {models : List (Model α)} (lineage : Lineage models)
    (member : model ∈ models) {store : Store α} (settled : model.SettledIn store) :
    base.SettledIn (node.releasing base.header store) := by
  intro held below holds closed holdsBelow
  have before : held.isClosed store = true := by
    obtain ⟨serial, known, isClosed⟩ := isClosed_eq_true_iff.1 closed
    rw [isClosed_releasing wrapped owns lineage member store holds serial known] at isClosed
    exact isClosed_eq_true_iff.2 ⟨serial, known, isClosed⟩
  rw [isOpen_congr (isClosed_releasing wrapped owns lineage member store (holds.trans holdsBelow))]
  exact settled (.owned wrapped owns holds) before holdsBelow

end Owned

/-- Closing a model closes all that it holds, from the top down. -/
theorem releases_close {models : List (Model α)} (lineage : Lineage models)
    {model : Model α} (member : model ∈ models) {store : Store α} (settled : model.SettledIn store) :
    store.Releases (model.close store) model.chain := by
  induction model using layers_induction generalizing store with
  | backend leaf =>
      cases closed : store.isClosed leaf.serial with
      | true =>
          have same : (Model.backend leaf).close store = store := if_pos closed
          rw [same]
          exact .of_none_open (settled.none_open rfl closed)
      | false => exact leaf.releases_close closed
  | expression leaf =>
      refine .of_none_open fun held inside => ?_
      rw [List.mem_singleton.1 inside]
      rfl
  | layer model node base wrapped ih =>
      have known : model.serial? = some node.serial := serial?_of_wrapped wrapped
      cases closed : store.isClosed node.serial with
      | true =>
          have same : model.close store = store := by
            rw [close_of_wrapped wrapped, Wrapper.close, if_pos closed]
          rw [same]
          exact .of_none_open (settled.none_open known closed)
      | false =>
          have self := releases_layer wrapped closed
          have unfolded : model.close store =
              if node.ownsBase then base.close (node.releasing base.header store)
              else store.markClosed node.serial := by
            rw [close_of_wrapped wrapped, Wrapper.close, closed]
            rfl
          rw [unfolded, chain_of_wrapped wrapped]
          by_cases owns : node.ownsBase = true
          · rw [if_pos owns] at self
            rw [if_pos owns, if_pos owns]
            have below := ih (lineage.bases member wrapped)
              (settled.releasing wrapped owns lineage member)
            exact self.append below fun held inside =>
              isOpen_congr (isClosed_releasing wrapped owns lineage member store (mem_chain.1 inside))
          · rw [if_neg owns] at self
            rw [if_neg owns, if_neg owns]
            exact self

end Model

end CompositeModels
