/-
Module: CompositeModels.Proofs.Closing.Accounts
Purpose: What is closed in the course of a session. Only closings release anything, so at any time the
  closed models are what the closings so far have reached. They were closed in some order, each has
  recorded its line once, and a backend was closed once for each leaf among them that owns it.
Main exports: Store.ReleasesNothing, Session.releasesNothing_perform, Session.Knows,
  Session.KnowsAll, Session.Numbered, Session.Accounts, Session.Accounts.run
-/
import CompositeModels.Proofs.Closing
import CompositeModels.Proofs.Session

namespace CompositeModels

open Eval (Leads)

variable {α β : Type}

/-! ### What releases nothing -/

/-- What a closing records is the line of a closing. -/
theorem Model.isRelease_of_releaseLine? {model : Model α} {event : Event α}
    (line : model.releaseLine? = some event) : event.isRelease = true := by
  cases model using Model.layers_induction with
  | backend leaf =>
      simp only [releaseLine?, Option.ite_none_right_eq_some] at line
      cases line.2
      rfl
  | expression leaf => cases line
  | layer model node base wrapped _ =>
      rw [releaseLine?_of_wrapped wrapped, Option.ite_none_right_eq_some] at line
      cases line.2
      rfl

theorem Model.filter_isRelease_releaseLine? (models : List (Model α)) :
    (models.filterMap releaseLine?).filter Event.isRelease = models.filterMap releaseLine? := by
  refine List.filter_eq_self.2 fun event inside => ?_
  obtain ⟨held, _, line⟩ := List.mem_filterMap.1 inside
  exact isRelease_of_releaseLine? line

/-- Two stores with the same closed models, the same lines of closings and the same counts of them. Serial
numbers may have been handed out. -/
structure Store.ReleasesNothing (before after : Store α) : Prop where
  next : before.next ≤ after.next
  isClosed : ∀ serial, after.isClosed serial = before.isClosed serial
  log : after.log.filter Event.isRelease = before.log.filter Event.isRelease
  closings : ∀ backend, (after.tally backend).closed = (before.tally backend).closed

namespace Store.ReleasesNothing

instance isPreorder : IsPreorder (Store α) ReleasesNothing where
  refl := fun _ => ⟨Nat.le_refl _, fun _ => rfl, rfl, fun _ => rfl⟩
  trans := fun _ _ _ first second => {
    next := Nat.le_trans first.next second.next
    isClosed := fun serial => (second.isClosed serial).trans (first.isClosed serial)
    log := second.log.trans first.log
    closings := fun backend => (second.closings backend).trans (first.closings backend) }

end Store.ReleasesNothing

theorem Store.SameFrame.releasesNothing {before after : Store α} (same : before.SameFrame after) :
    before.ReleasesNothing after where
  next := Nat.le_of_eq same.next.symm
  isClosed := fun serial => by rw [Store.isClosed, Store.isClosed, same.closed]
  log := by rw [same.log]
  closings := same.closings

theorem Eval.KeepsFrame.releasesNothing {program : Eval α β} (keeps : KeepsFrame program) :
    Leads Store.ReleasesNothing program :=
  fun store => (keeps store).releasesNothing

/-- No line of a closing is recorded with a construction. -/
theorem Store.Issues.releasesNothing {before after : Store α} {count : Nat}
    (issues : before.Issues count after) : before.ReleasesNothing after := by
  obtain ⟨events, others, rfl⟩ := issues
  refine ⟨Nat.le_add_right _ _, fun _ => rfl, ?_, fun _ => rfl⟩
  have nothing : events.filter Event.isRelease = [] :=
    List.filter_eq_nil_iff.2 fun event inside => by simp [others event inside]
  rw [Store.issue, List.filter_append, nothing, List.append_nil]

theorem Eval.Leads.record {event : Event α} (other : event.isRelease = false) :
    Leads Store.ReleasesNothing (record event) := by
  intro store
  have issues : store.Issues 0 (store.issue 0 [event]) := .one other
  exact issues.releasesNothing

/-- An update records that it was made. -/
theorem AugmentedLagrangian.releasesNothing_update [Scalar α] (node : AugmentedLagrangian α)
    (base : Header α) (mu y : Tensor α) : Leads Store.ReleasesNothing (node.update base mu y) :=
  .bind (.ofExcept _) fun _ => .bind .check fun _ =>
    .bind (.modify fun _ => ⟨Nat.le_refl _, fun _ => rfl, rfl, fun _ => rfl⟩) fun _ => .record rfl

/-- The model that an action closes. -/
def Action.closes? : Action α → Option (Model α)
  | .close model => some model
  | _ => none

namespace Session

/-! ### Numbers and accounts -/

/-- The models of a session were built on each other, under serial numbers that were handed out. -/
structure Numbered (session : Session α) : Prop where
  lineage : Lineage session.models
  issued : ∀ {model serial}, model ∈ session.models → model.serial? = some serial →
    serial < session.store.next

theorem Numbered.start : ({} : Session α).Numbered where
  lineage := {
    bases := by
      intro model node base member
      cases member
    distinct := by
      intro first second serial member
      cases member }
  issued := by
    intro model serial member
    cases member

theorem Numbered.withStore {session : Session α} (numbered : session.Numbered) {store : Store α}
    {backends : List (Nat × Backend α)} (next : session.store.next ≤ store.next) :
    Numbered { store := store, backends := backends, models := session.models } where
  lineage := numbered.lineage
  issued := fun member known => Nat.lt_of_lt_of_le (numbered.issued member known) next

/-- What was closed so far, in the order in which it was closed: all that the given models hold. -/
structure Accounts (session : Session α) (closings order : List (Model α)) : Prop where
  known : ∀ top ∈ closings, top ∈ session.models
  closed : ∀ {model serial}, model ∈ session.models → model.serial? = some serial →
    (session.store.isClosed serial = true ↔ ∃ top ∈ closings, top.Holds model)
  issued : ∀ {serial}, session.store.isClosed serial = true →
    ∃ model ∈ session.models, model.serial? = some serial
  nodup : order.Nodup
  mem_order : ∀ {model}, model ∈ order ↔
    model ∈ session.models ∧ model.isClosed session.store = true
  log : session.store.log.filter Event.isRelease = order.filterMap Model.releaseLine?
  closings : ∀ backend, (session.store.tally backend).closed = order.countP (·.closesBackend backend)

namespace Accounts

theorem start : ({} : Session α).Accounts [] [] where
  known := by
    intro top inside
    cases inside
  closed := by
    intro model serial member
    cases member
  issued := by
    intro serial closed
    cases closed
  nodup := List.nodup_nil
  mem_order := by simp
  log := rfl
  closings := fun _ => rfl

variable {session : Session α} {closings order : List (Model α)}
  (accounts : session.Accounts closings order)
include accounts

/-- Whatever is held by something closed is held by what was closed first, and so it is closed. -/
theorem settledIn (numbered : session.Numbered) {model : Model α} (member : model ∈ session.models) :
    model.SettledIn session.store := by
  intro held below holds closed holdsBelow
  have heldMember : held ∈ session.models := numbered.lineage.mem_of_holds member holds
  obtain ⟨serial, known, isClosed⟩ := Model.isClosed_eq_true_iff.1 closed
  obtain ⟨top, inside, topHolds⟩ := (accounts.closed heldMember known).1 isClosed
  refine Model.isOpen_eq_false_iff.2 fun other otherKnown => ?_
  have belowMember : below ∈ session.models := numbered.lineage.mem_of_holds heldMember holdsBelow
  exact (accounts.closed belowMember otherKnown).2 ⟨top, inside, topHolds.trans holdsBelow⟩

/-- Where nothing is released, the accounts remain, also if models are added: nothing holds them yet. -/
theorem releasesNothing {later : Session α} (numbered : session.Numbered)
    (laterNumbered : later.Numbered) (kept : ∀ model ∈ session.models, model ∈ later.models)
    (nothing : session.store.ReleasesNothing later.store) : later.Accounts closings order := by
  have old : ∀ {model serial}, model ∈ later.models → model.serial? = some serial →
      session.store.isClosed serial = true → model ∈ session.models := by
    intro model serial member known closed
    obtain ⟨other, otherMember, otherKnown⟩ := accounts.issued closed
    have same : model = other :=
      laterNumbered.lineage.distinct member (kept other otherMember) known otherKnown
    exact same ▸ otherMember
  constructor
  · exact fun top inside => kept top (accounts.known top inside)
  · intro model serial member known
    rw [nothing.isClosed]
    constructor
    · intro closed
      exact (accounts.closed (old member known closed) known).1 closed
    · rintro ⟨top, inside, holds⟩
      have oldMember := numbered.lineage.mem_of_holds (accounts.known top inside) holds
      exact (accounts.closed oldMember known).2 ⟨top, inside, holds⟩
  · intro serial closed
    rw [nothing.isClosed] at closed
    obtain ⟨model, member, known⟩ := accounts.issued closed
    exact ⟨model, kept model member, known⟩
  · exact accounts.nodup
  · intro model
    simp only [accounts.mem_order, Model.isClosed_eq_true_iff, nothing.isClosed]
    constructor
    · rintro ⟨member, closed⟩
      exact ⟨kept model member, closed⟩
    · rintro ⟨member, serial, known, closed⟩
      exact ⟨old member known closed, serial, known, closed⟩
  · rw [nothing.log, accounts.log]
  · intro backend
    rw [nothing.closings, accounts.closings]

end Accounts

/-! ### Actions -/

variable [Elementary α]

/-- Only closings release anything. -/
theorem releasesNothing_perform (session : Session α) {action : Action α}
    (other : ∀ model, action ≠ .close model) :
    session.store.ReleasesNothing (session.perform action).store := by
  cases action with
  | provide backend => exact Store.Issues.none.releasesNothing
  | build construction =>
      rcases session.perform_build_cases construction with same | ⟨model, later, grants, same⟩
      · rw [same]
        exact refl_of Store.ReleasesNothing _
      · obtain ⟨_, issues⟩ := grants.issues
        rw [same]
        exact issues.releasesNothing
  | call model call => exact (model.quiet.call call).releasesNothing session.store
  | ask node base question => exact (node.keepsFrame_ask base.quiet question).releasesNothing _
  | estimate node base x out =>
      exact (node.keepsFrame_multiplierEstimate base.quiet x out).releasesNothing _
  | update node base mu y => exact node.releasesNothing_update base.header mu y session.store
  | close model => exact absurd rfl (other model)

/-- Only models of the session are used. Nothing is asked of what callers supply. -/
def Knows (session : Session α) : Action α → Prop
  | .provide _ => True
  | .build construction => ∀ base ∈ construction.base?, base ∈ session.models
  | .call model _ | .close model => model ∈ session.models
  | .ask node base _ => .feasibility node base ∈ session.models
  | .estimate node base _ _ | .update node base _ _ =>
      .augmentedLagrangian node base ∈ session.models

/-- Only models of the session are used, each when its turn comes. -/
def KnowsAll (session : Session α) : List (Action α) → Prop
  | [] => True
  | action :: rest => session.Knows action ∧ (session.perform action).KnowsAll rest

variable {session : Session α} {closings order : List (Model α)}

theorem Numbered.perform (numbered : session.Numbered) {action : Action α}
    (knows : session.Knows action) : (session.perform action).Numbered := by
  have others : (∀ model, action ≠ .close model) →
      session.store.next ≤ (session.perform action).store.next :=
    fun other => (session.releasesNothing_perform other).next
  cases action with
  | build construction =>
      rcases session.perform_build_cases construction with same | ⟨new, later, grants, same⟩
      · rw [same]
        exact numbered
      · rw [same]
        constructor
        · refine numbered.lineage.cons (fun base built => ?_) fun member known newKnown => ?_
          · exact knows base (grants.base ▸ built)
          · have issued := numbered.issued member known
            have next := (grants.serial _ newKnown).1
            omega
        · intro model serial member known
          rcases List.mem_cons.1 member with rfl | old
          · have ⟨serialEq, nextEq⟩ := grants.serial serial known
            show serial < later.next
            omega
          · have grown := others (by simp)
            rw [same] at grown
            exact Nat.lt_of_lt_of_le (numbered.issued old known) grown
  | close model => exact numbered.withStore (Nat.le_of_eq (model.next_close _).symm)
  | provide backend => exact numbered.withStore (others (by simp))
  | call model call => exact numbered.withStore (others (by simp))
  | ask node base question => exact numbered.withStore (others (by simp))
  | estimate node base x out => exact numbered.withStore (others (by simp))
  | update node base mu y => exact numbered.withStore (others (by simp))

theorem Numbered.run (numbered : session.Numbered) {actions : List (Action α)}
    (knows : session.KnowsAll actions) : (session.run actions).Numbered := by
  induction actions generalizing session with
  | nil => exact numbered
  | cons action rest ih => exact ih (numbered.perform knows.1) knows.2

/-- A closing reaches all that the model holds, and of this the open part is closed now. -/
theorem Accounts.close (accounts : session.Accounts closings order) (numbered : session.Numbered)
    {model : Model α} (member : model ∈ session.models) :
    (session.perform (.close model)).Accounts (closings ++ [model])
      (order ++ model.chain.filter (·.isOpen session.store)) := by
  have releases : session.store.Releases (model.close session.store) model.chain :=
    Model.releases_close numbered.lineage member (accounts.settledIn numbered member)
  have chainMember : ∀ {held}, held ∈ model.chain → held ∈ session.models := fun inside =>
    numbered.lineage.mem_of_holds member (Model.mem_chain.1 inside)
  have reached : ∀ {held serial}, held ∈ session.models → held.serial? = some serial →
      ((∃ other ∈ model.chain, other.serial? = some serial) ↔ model.Holds held) :=
    fun heldMember known => numbered.lineage.holds_iff_serial member heldMember known
  constructor
  · intro top inside
    rcases List.mem_append.1 inside with old | new
    · exact accounts.known top old
    · exact List.mem_singleton.1 new ▸ member
  · intro held serial heldMember known
    show (model.close session.store).isClosed serial = true ↔ _
    rw [releases.isClosed, accounts.closed heldMember known, reached heldMember known]
    simp [or_and_right, exists_or]
  · intro serial closed
    rcases (releases.isClosed serial).1 closed with before | ⟨held, inside, known⟩
    · exact accounts.issued before
    · exact ⟨held, chainMember inside, known⟩
  · refine accounts.nodup.append (model.nodup_chain.filter _) fun held inOrder inPending => ?_
    have closed := (accounts.mem_order.1 inOrder).2
    have isOpen := (List.mem_filter.1 inPending).2
    rw [Model.isOpen_eq_false_of_isClosed closed] at isOpen
    cases isOpen
  · intro held
    simp only [List.mem_append, List.mem_filter, accounts.mem_order, Model.isClosed_eq_true_iff]
    constructor
    · rintro (⟨heldMember, serial, known, isClosed⟩ | ⟨inside, isOpen⟩)
      · exact ⟨heldMember, serial, known, (releases.isClosed serial).2 (.inl isClosed)⟩
      · obtain ⟨serial, known, _⟩ := Model.isOpen_eq_true_iff.1 isOpen
        exact ⟨chainMember inside, serial, known,
          (releases.isClosed serial).2 (.inr ⟨held, inside, known⟩)⟩
    · rintro ⟨heldMember, serial, known, closed⟩
      cases before : session.store.isClosed serial with
      | true => exact .inl ⟨heldMember, serial, known, before⟩
      | false =>
          rw [show (session.perform (.close model)).store = model.close session.store from rfl,
            releases.isClosed, before, reached heldMember known] at closed
          have holds : model.Holds held := closed.resolve_left Bool.false_ne_true
          exact .inr ⟨Model.mem_chain.2 holds, Model.isOpen_eq_true_iff.2 ⟨serial, known, before⟩⟩
  · show (model.close session.store).log.filter Event.isRelease = _
    rw [releases.log, List.filter_append, accounts.log, Model.filter_isRelease_releaseLine?,
      List.filterMap_append]
  · intro backend
    show ((model.close session.store).tally backend).closed = _
    rw [releases.closings, accounts.closings, List.countP_append]

theorem Accounts.perform (accounts : session.Accounts closings order) (numbered : session.Numbered)
    {action : Action α} (knows : session.Knows action) :
    ∃ order, (session.perform action).Accounts (closings ++ action.closes?.toList) order := by
  have laterNumbered : (session.perform action).Numbered := numbered.perform knows
  have kept : ∀ model ∈ session.models, model ∈ (session.perform action).models :=
    fun _ member => mem_perform member action
  have others : (∀ model, action ≠ .close model) →
      (session.perform action).Accounts closings order :=
    fun other => accounts.releasesNothing numbered laterNumbered kept
      (session.releasesNothing_perform other)
  cases action with
  | close model => exact ⟨_, accounts.close numbered knows⟩
  | _ => exact ⟨order, by simpa [Action.closes?] using others (by simp)⟩

/-- By the end of a run, what the closings of the run have reached is closed. -/
theorem Accounts.run (accounts : session.Accounts closings order) (numbered : session.Numbered)
    {actions : List (Action α)} (knows : session.KnowsAll actions) :
    ∃ order, (session.run actions).Accounts (closings ++ actions.filterMap Action.closes?) order := by
  induction actions generalizing session closings order with
  | nil => exact ⟨order, by simpa [Session.run] using accounts⟩
  | cons action rest ih =>
      obtain ⟨_, next⟩ := accounts.perform numbered knows.1
      obtain ⟨order, last⟩ := ih next (numbered.perform knows.1) knows.2
      refine ⟨order, ?_⟩
      cases closes : action.closes? with
      | none => simpa [Session.run, closes, List.filterMap_cons] using last
      | some model => simpa [Session.run, closes, List.filterMap_cons] using last

end Session

end CompositeModels
