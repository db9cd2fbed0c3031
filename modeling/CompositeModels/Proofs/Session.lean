/-
Module: CompositeModels.Proofs.Session
Purpose: Sessions, in which backends are handed in, models are built on each other, asked, updated and
  closed in any order. In every session that can be reached the models form a family and the store is
  ready for it, so every call is answered as the meaning of its model says.
Main exports: Session, Action, Session.perform, Session.Admits, Session.run, Session.AdmitsAll,
  Session.Reachable, Session.Sound, Session.Reachable.sound, Session.Reachable.configured,
  Session.Sound.outcome_call, Session.Sound.outcome_ask, Session.Sound.outcome_multiplierEstimate,
  Session.pinned, Session.boxed
-/
import CompositeModels.Proofs.Exact
import CompositeModels.Model.Closing
import CompositeModels.Proofs.Calls
import CompositeModels.Proofs.Construction.Validated

namespace CompositeModels

open Eval (Answers AnswersAt)

variable {α : Type}

/-! ### Ready stores -/

namespace Store.Ready

variable [Elementary α] {models : List (Model α)} {penalties : Table (Penalty α)} {store : Store α}

theorem record (ready : store.Ready models penalties) (event : Event α) :
    (store.record event).Ready models penalties where
  unrevised := ready.unrevised
  inForce := ready.inForce
  issued := ready.issued
  unused := ready.unused
  fits := ready.fits
  scratch := ready.scratch
  cache := ready.cache

theorem markClosed (ready : store.Ready models penalties) (model : Nat) :
    (store.markClosed model).Ready models penalties where
  unrevised := ready.unrevised
  inForce := ready.inForce
  issued := ready.issued
  unused := ready.unused
  fits := ready.fits
  scratch := ready.scratch
  cache := ready.cache

/-- Handing out serial numbers leaves a store ready, since nothing is kept under the new ones. -/
theorem issue (ready : store.Ready models penalties) (count : Nat) (events : List (Event α)) :
    (store.issue count events).Ready models penalties where
  unrevised := ready.unrevised
  inForce := ready.inForce
  issued := fun member same => Nat.lt_add_right _ (ready.issued member same)
  unused := fun fresh => ready.unused (Nat.le_trans (Nat.le_add_right _ count) fresh)
  fits := ready.fits
  scratch := ready.scratch
  cache := ready.cache

/-- In force for a new augmented Lagrangian are the penalty data that it was built with. -/
theorem penaltyIn_new (ready : store.Ready models penalties) {node : AugmentedLagrangian α}
    (new : node.serial = store.next) : node.penaltyIn penalties = node.initialPenalty := by
  obtain ⟨_, _, unused⟩ := ready.unused (Nat.le_of_eq new.symm)
  rw [ready.inForce] at unused
  rw [AugmentedLagrangian.penaltyIn, unused]
  rfl

/-- A new model finds nothing under its serial number, so it starts with buffers of its own. -/
theorem extend (ready : store.Ready models penalties) {model : Model α} (regular : model.Regular)
    {count : Nat} {events : List (Event α)}
    (serial : ∀ serial, model.serial? = some serial → serial = store.next ∧ count = 1) :
    (store.issue count events).Ready (model :: models) penalties where
  unrevised := ready.unrevised
  inForce := ready.inForce
  issued := by
    intro other otherSerial member same
    rcases List.mem_cons.1 member with rfl | old
    · rcases serial _ same with ⟨rfl, rfl⟩
      exact Nat.lt_succ_self _
    · exact Nat.lt_add_right _ (ready.issued old same)
  unused := fun {serial} fresh => ready.unused (Nat.le_trans (Nat.le_add_right _ count) fresh)
  fits := by
    intro node base member
    rcases List.mem_cons.1 member with rfl | old
    · rcases serial node.serial rfl with ⟨issued, _⟩
      rw [ready.penaltyIn_new issued]
      exact regular.2.2
    · exact ready.fits old
  scratch := by
    intro node base member
    rcases List.mem_cons.1 member with rfl | old
    · rcases serial node.serial rfl with ⟨issued, _⟩
      obtain ⟨_, unused, _⟩ := ready.unused (Nat.le_of_eq issued.symm)
      have fresh : (store.issue count events).scratch.get? node.serial = none := unused
      rw [AugmentedLagrangian.scratch, fresh]
      constructor <;> simp
    · exact ready.scratch old
  cache := by
    intro node base member
    rcases List.mem_cons.1 member with rfl | old
    · rcases serial node.serial rfl with ⟨issued, _⟩
      obtain ⟨unused, _, _⟩ := ready.unused (Nat.le_of_eq issued.symm)
      have fresh : (store.issue count events).residuals.get? node.serial = none := unused
      rw [Feasibility.cache, fresh]
      exact {
        constraints := by simp
        residual := by simp
        point := by
          intro _ same
          cases same }
    · exact ready.cache old

/-- Penalty data that fit may come into force. -/
theorem setPenalty (family : Family models) (ready : store.Ready models penalties)
    {node : AugmentedLagrangian α} {base : Model α}
    (member : .augmentedLagrangian node base ∈ models) {penalty : Penalty α}
    (fits : penalty.Fits base.header.ncon) :
    Store.Ready models (penalties.set node.serial penalty)
      { store with penalties := store.penalties.set node.serial penalty } where
  unrevised := ready.unrevised
  inForce := by rw [ready.inForce]
  issued := ready.issued
  unused := by
    intro serial fresh
    have different : serial ≠ node.serial := ready.ne_of_fresh member rfl fresh
    obtain ⟨residuals, scratches, penaltyData⟩ := ready.unused fresh
    refine ⟨residuals, scratches, ?_⟩
    rw [Table.get?_set_of_ne _ _ different]
    exact penaltyData
  fits := by
    intro other otherBase otherMember
    by_cases same : other.serial = node.serial
    · have models : Model.augmentedLagrangian other otherBase = .augmentedLagrangian node base :=
        family.distinct otherMember member (congrArg some same) rfl
      cases models
      simpa [AugmentedLagrangian.penaltyIn] using fits
    · simpa [AugmentedLagrangian.penaltyIn, Table.get?_set_of_ne _ _ same] using
        ready.fits otherMember
  scratch := ready.scratch
  cache := ready.cache

/-- Closing a wrapper closes its base at most. -/
theorem closeWrapper (ready : store.Ready models penalties) (node : Wrapper α) (base : Header α)
    {closeBase : Store α → Store α}
    (closes : ∀ later : Store α, later.Ready models penalties →
      (closeBase later).Ready models penalties) :
    (node.close base closeBase store).Ready models penalties := by
  unfold Wrapper.close
  split
  · exact ready
  · split
    · exact closes _ ((ready.markClosed _).record _)
    · exact ready.markClosed _

theorem close (model : Model α) :
    ∀ {store : Store α}, store.Ready models penalties → (model.close store).Ready models penalties := by
  induction model with
  | backend leaf =>
      intro store ready
      simp only [Model.close, BackendLeaf.close]
      split
      · exact ready
      · split
        · exact ((ready.markClosed _).record _).setTally _ _
        · exact ready.markClosed _
  | expression leaf => exact id
  | slack node base ih => exact fun ready => ready.closeWrapper _ _ fun _ => ih
  | proximalPoint node base ih => exact fun ready => ready.closeWrapper _ _ fun _ => ih
  | augmentedLagrangian node base ih => exact fun ready => ready.closeWrapper _ _ fun _ => ih
  | feasibility node base ih => exact fun ready => ready.closeWrapper _ _ fun _ => ih
  | tailored node base ih => exact fun ready => ready.closeWrapper _ _ fun _ => ih

end Store.Ready

/-- Whatever penalty data the store is ready for are the ones that it holds. -/
theorem Store.Ready.current [Elementary α] {models : List (Model α)}
    {penalties : Table (Penalty α)} {store : Store α} (ready : store.Ready models penalties) :
    store.Ready models store.penalties := by
  rw [ready.inForce]
  exact ready

/-- An update with admissible data brings them into force. Any other is refused and changes nothing. -/
theorem AugmentedLagrangian.update_cases [Scalar α] (node : AugmentedLagrangian α) (base : Header α)
    (mu y : Tensor α) (store : Store α) :
    (¬ Penalty.Admissible base.ncon mu y ∧
        ∃ cause, (node.update base mu y).run store = .error cause store) ∨
      (Penalty.Admissible base.ncon mu y ∧
        ∃ event, (node.update base mu y).run store = .ok ⟨⟩ (Store.record
          { store with
            penalties := store.penalties.set node.serial (.ofVectors mu y) } event)) := by
  unfold update
  cases made : Penalty.make mu y with
  | error cause =>
      refine .inl ⟨fun admissible => ?_, cause, rfl⟩
      rw [Penalty.make_of_admissible admissible] at made
      cases made
  | ok penalty =>
      show (_ ∧ ∃ cause, (Eval.ofExcept (checkVectors base.ncon [penalty.mu.shape]) >>= _).run store =
          _) ∨
        _ ∧ ∃ event, (Eval.ofExcept (checkVectors base.ncon [penalty.mu.shape]) >>= _).run store = _
      cases checked : checkVectors (α := α) base.ncon [penalty.mu.shape] with
      | error cause =>
          refine .inl ⟨fun admissible => ?_, cause, rfl⟩
          rw [Penalty.make_of_admissible admissible] at made
          cases made
          rw [show (Penalty.ofVectors mu y).mu.shape = [base.ncon] from admissible.1,
            checkVectors_self] at checked
          cases checked
      | ok =>
          have shape := shape_eq_of_check checked
          have penaltyEq := Penalty.eq_ofVectors_of_make made shape
          subst penaltyEq
          exact .inr ⟨Penalty.admissible_of_make made shape, _, rfl⟩

/-! ### Sessions -/

/-- The store, the backends that were handed in with their serial numbers, and the models that were
built, the newest first. -/
structure Session (α : Type) where
  store : Store α := {}
  backends : List (Nat × Backend α) := []
  models : List (Model α) := []

/-- What users do, one thing at a time. -/
inductive Action (α : Type) where
  /-- Hand in a backend. -/
  | provide (backend : Backend α)
  /-- Build a model. -/
  | build (construction : Construction α)
  /-- Call an operation that every model has. -/
  | call (model : Model α) (call : Call α)
  /-- Ask a feasibility problem for what only it has. -/
  | ask (node : Feasibility α) (base : Model α) (question : Feasibility.Question α)
  /-- Ask an augmented Lagrangian for its multiplier estimate. -/
  | estimate (node : AugmentedLagrangian α) (base : Model α) (x : Tensor α)
      (out : Option (Tensor α))
  /-- Replace the penalty data of an augmented Lagrangian. -/
  | update (node : AugmentedLagrangian α) (base : Model α) (mu y : Tensor α)
  /-- Close a model. -/
  | close (model : Model α)

namespace Session

variable [Elementary α]

/-- Do something. What fails may still change the store, and a model that is not granted is not added. -/
def perform (session : Session α) : Action α → Session α
  | .provide backend =>
      { session with
        store := Eval.freshSerial.after session.store
        backends := (session.store.next, backend) :: session.backends }
  | .build construction =>
      match construction.build.run session.store with
      | .ok model store => { session with store := store, models := model :: session.models }
      | .error _ store => { session with store := store }
  | .call model call =>
      { session with store := (model.oracle.call call).after session.store }
  | .ask node base question =>
      { session with store := (node.ask base.oracle question).after session.store }
  | .estimate node base x out =>
      { session with store := (node.multiplierEstimate base.oracle x out).after session.store }
  | .update node base mu y =>
      { session with store := (node.update base.header mu y).after session.store }
  | .close model => { session with store := model.close session.store }

/-- Only models of the session are used, and only backends that were handed in. What the callers supply
keeps what they promise. -/
def Admits (session : Session α) : Action α → Prop
  | .provide _ => True
  | .build construction =>
      construction.Admissible ∧ (∀ base ∈ construction.base?, base ∈ session.models) ∧
        match construction with
        | .ofBackend backendSerial backend _ _ => (backendSerial, backend) ∈ session.backends
        | _ => True
  | .call model _ | .close model => model ∈ session.models
  | .ask node base _ => .feasibility node base ∈ session.models
  | .estimate node base _ _ | .update node base _ _ =>
      .augmentedLagrangian node base ∈ session.models

/-- Do one thing after the other. -/
def run (session : Session α) : List (Action α) → Session α
  | [] => session
  | action :: rest => (session.perform action).run rest

/-- Each thing that is done is admitted when its turn comes. -/
def AdmitsAll (session : Session α) : List (Action α) → Prop
  | [] => True
  | action :: rest => session.Admits action ∧ (session.perform action).AdmitsAll rest

/-- Sessions that begin with nothing. -/
inductive Reachable : Session α → Prop
  | start : Reachable {}
  | step {session : Session α} {action : Action α} (reachable : Reachable session)
      (admits : session.Admits action) : Reachable (session.perform action)

theorem Reachable.run {session : Session α} (reachable : session.Reachable) :
    ∀ {actions : List (Action α)}, session.AdmitsAll actions → (session.run actions).Reachable := by
  intro actions
  induction actions generalizing session with
  | nil => exact fun _ => reachable
  | cons action rest ih => exact fun ⟨admits, others⟩ => ih (reachable.step admits) others

/-! ### What holds of every session -/

/-- The models of a session form a family, and its store is ready for it. -/
structure Sound (session : Session α) : Prop where
  family : Family session.models
  ready : session.store.Ready session.models session.store.penalties

end Session

/-- A new model may be built on a base that is among the others, if its serial number is new. -/
theorem Lineage.cons {models : List (Model α)} (lineage : Lineage models) {model : Model α}
    (known : ∀ base, model.base? = some base → base ∈ models)
    (new : ∀ {other serial}, other ∈ models → other.serial? = some serial →
      model.serial? ≠ some serial) : Lineage (model :: models) where
  bases := by
    intro other node base member wrapped
    rcases List.mem_cons.1 member with rfl | old
    · exact .tail _ (known base (by rw [Model.base?, wrapped]; rfl))
    · exact .tail _ (lineage.bases old wrapped)
  distinct := by
    intro first second serial firstMember secondMember firstSerial secondSerial
    rcases List.mem_cons.1 firstMember with rfl | firstOld <;>
      rcases List.mem_cons.1 secondMember with rfl | secondOld
    · rfl
    · exact absurd firstSerial (new secondOld secondSerial)
    · exact absurd secondSerial (new firstOld firstSerial)
    · exact lineage.distinct firstOld secondOld firstSerial secondSerial

/-- A new model may join a family on a base of the family, if its serial number is new. -/
theorem Family.cons [Scalar α] {models : List (Model α)} (family : Family models) {model : Model α}
    (regular : model.Regular) (known : ∀ base, model.base? = some base → base ∈ models)
    (new : ∀ {other serial}, other ∈ models → other.serial? = some serial →
      model.serial? ≠ some serial) : Family (model :: models) where
  bases := (family.lineage.cons known new).bases
  distinct := (family.lineage.cons known new).distinct
  regular := by
    intro other member
    rcases List.mem_cons.1 member with rfl | old
    · exact regular
    · exact family.regular old

namespace Session

variable [Elementary α]

namespace Sound

variable {session : Session α}

theorem start : ({} : Session α).Sound where
  family := {
    bases := fun member => nomatch member
    distinct := fun member => nomatch member
    regular := fun member => nomatch member }
  ready := {
    unrevised := fun _ => rfl
    inForce := rfl
    issued := fun member => nomatch member
    unused := fun _ => ⟨rfl, rfl, rfl⟩
    fits := fun member => nomatch member
    scratch := fun member => nomatch member
    cache := fun member => nomatch member }

/-- What leaves the store ready leaves the session sound. -/
theorem withStore (sound : session.Sound) {store : Store α} {penalties : Table (Penalty α)}
    {backends : List (Nat × Backend α)} (ready : store.Ready session.models penalties) :
    Sound { store := store, backends := backends, models := session.models } where
  family := sound.family
  ready := ready.current

/-- A model that is granted belongs to the family, with its base and a serial number of its own. -/
theorem build (sound : session.Sound) {construction : Construction α}
    (admissible : construction.Admissible)
    (known : ∀ base ∈ construction.base?, base ∈ session.models) :
    (session.perform (.build construction)).Sound := by
  simp only [perform]
  cases construction.builds admissible with
  | refused cause run =>
      rw [run _ sound.ready.unrevised]
      exact sound.withStore sound.ready
  | granted template events run gives =>
      rw [run _ sound.ready.unrevised]
      have serial : ∀ serial, (template.relabel session.store.next).serial? = some serial →
          serial = session.store.next ∧ construction.serials = 1 := by
        intro serial same
        rw [Model.serial?_relabel] at same
        rcases Option.map_eq_some_iff.1 same with ⟨old, templateSerial, rfl⟩
        exact ⟨rfl, gives.serial old templateSerial⟩
      have regular : (template.relabel session.store.next).Regular :=
        Model.regular_relabel gives.regular
      exact {
        family := sound.family.cons regular
          (fun base same => known base (by
            rw [← gives.base, ← Model.base?_relabel]
            exact same))
          fun member same => by
            have issued := sound.ready.issued member same
            intro new
            have := (serial _ new).1
            omega
        ready := (sound.ready.extend regular serial).current }

theorem perform (sound : session.Sound) {action : Action α} (admits : session.Admits action) :
    (session.perform action).Sound := by
  rcases sound with ⟨family, ready⟩
  cases action with
  | provide backend =>
      have issued : Eval.freshSerial.after session.store = session.store.issue 1 [] := by
        rw [Store.issue, List.append_nil]
        rfl
      have kept : (Eval.freshSerial.after session.store).Ready session.models
          session.store.penalties := by
        rw [issued]
        exact ready.issue 1 []
      exact withStore ⟨family, ready⟩ kept
  | build construction => exact Sound.build ⟨family, ready⟩ admits.1 admits.2.1
  | call model call =>
      exact withStore ⟨family, ready⟩ (Model.answers_call family admits call _ ready).keeps
  | ask node base question =>
      exact withStore ⟨family, ready⟩ (Feasibility.answers_ask family admits question _ ready).keeps
  | estimate node base x out =>
      exact withStore ⟨family, ready⟩
        (AugmentedLagrangian.answers_multiplierEstimate family admits x out _ ready).keeps
  | update node base mu y =>
      rcases node.update_cases base.header mu y session.store with
        ⟨_, cause, run⟩ | ⟨admissible, event, run⟩
      · have kept : ((node.update base.header mu y).after session.store).Ready session.models
            session.store.penalties := by
          rw [Eval.after_of_run_error run]
          exact ready
        exact withStore ⟨family, ready⟩ kept
      · have kept : ((node.update base.header mu y).after session.store).Ready session.models
            (session.store.penalties.set node.serial (.ofVectors mu y)) := by
          rw [Eval.after_of_run_ok run]
          exact (ready.setPenalty family admits (Penalty.fits_ofVectors admissible)).record event
        exact withStore ⟨family, ready⟩ kept
  | close model => exact withStore ⟨family, ready⟩ (Store.Ready.close model ready)

end Sound

theorem Reachable.sound {session : Session α} (reachable : session.Reachable) : session.Sound := by
  induction reachable with
  | start => exact .start
  | step reachable admits ih => exact ih.perform admits

/-! ### What calls answer -/

variable {session : Session α} {model : Model α}

/-- A model that was built stays in the session. -/
theorem mem_perform (member : model ∈ session.models) (action : Action α) :
    model ∈ (session.perform action).models := by
  cases action with
  | build construction =>
      simp only [perform]
      split
      · exact .tail _ member
      · exact member
  | _ => exact member

theorem mem_run (member : model ∈ session.models) (actions : List (Action α)) :
    model ∈ (session.run actions).models := by
  induction actions generalizing session with
  | nil => exact member
  | cons action rest ih => exact ih (mem_perform member action)

/-- An update that is refused leaves the store alone. -/
theorem store_perform_update_of_refused {node : AugmentedLagrangian α} {base : Model α}
    {mu y : Tensor α} (refused : ¬ Penalty.Admissible base.header.ncon mu y) :
    (session.perform (.update node base mu y)).store = session.store := by
  rcases node.update_cases base.header mu y session.store with ⟨_, cause, run⟩ | ⟨admissible, _⟩
  · exact Eval.after_of_run_error run
  · exact absurd admissible refused

/-- An update that is accepted replaces the penalty data of one model. -/
theorem penalties_perform_update {node : AugmentedLagrangian α} {base : Model α} {mu y : Tensor α}
    (admissible : Penalty.Admissible base.header.ncon mu y) :
    (session.perform (.update node base mu y)).store.penalties =
      session.store.penalties.set node.serial (.ofVectors mu y) := by
  rcases node.update_cases base.header mu y session.store with ⟨refused, _⟩ | ⟨_, event, run⟩
  · exact absurd admissible refused
  · simp only [perform]
    rw [Eval.after_of_run_ok run]
    rfl

/-- A construction that is granted adds its model to the session. -/
theorem perform_build_of_ok {construction : Construction α} {store : Store α}
    (built : construction.build.run session.store = .ok model store) :
    session.perform (.build construction) =
      { session with store := store, models := model :: session.models } := by
  simp only [perform, built]

/-- A construction leaves the session as it was, or adds the model that was granted. -/
theorem perform_build_cases (session : Session α) (construction : Construction α) :
    session.perform (.build construction) = session ∨
      ∃ model later, construction.Grants session.store model later ∧
        session.perform (.build construction) =
          { session with store := later, models := model :: session.models } := by
  have validates := construction.validates_build session.store
  cases run : construction.build.run session.store with
  | ok model later =>
      exact .inr ⟨model, later, validates.good model later run, perform_build_of_ok run⟩
  | error cause later =>
      refine .inl ?_
      simp only [perform, run]
      rw [validates.clean cause later run]

/-- A construction that is granted leads to a session that has its model and can be reached. -/
theorem Reachable.build (reachable : session.Reachable) {construction : Construction α}
    (admits : session.Admits (.build construction)) {store : Store α}
    (built : construction.build.run session.store = .ok model store) :
    Reachable { session with store := store, models := model :: session.models } := by
  rw [← perform_build_of_ok built]
  exact reachable.step admits

/-- The models of a session have numbers that passed the checks. -/
theorem Reachable.configured (reachable : session.Reachable) :
    ∀ model ∈ session.models, model.Configured := by
  induction reachable with
  | start =>
      intro model member
      cases member
  | @step session action reachable admits ih =>
      cases action with
      | build construction =>
          cases run : construction.build.run session.store with
          | error cause later =>
              simp only [perform, run]
              exact ih
          | ok model later =>
              rw [perform_build_of_ok run]
              have configured := (construction.validates_configuration _).good model later run
              exact List.forall_mem_cons.2 ⟨configured, ih⟩
      | provide | call | ask | estimate | update | close => exact ih

namespace Sound

variable (sound : session.Sound)
include sound

theorem outcome_call (member : model ∈ session.models) (repeatable : model.Repeatable)
    (call : Call α) :
    (model.oracle.call call).outcome session.store = model.answer session.store.penalties call :=
  (Model.answers_call sound.family member call _ sound.ready).agrees repeatable

theorem outcome_ask {node : Feasibility α} {base : Model α}
    (member : .feasibility node base ∈ session.models) (pointFunction : base.PointFunction)
    (question : Feasibility.Question α) :
    (node.ask base.oracle question).outcome session.store =
      node.reply base.constraintMeaning question :=
  (Feasibility.answers_ask sound.family member question _ sound.ready).agrees pointFunction

theorem outcome_multiplierEstimate {node : AugmentedLagrangian α} {base : Model α}
    (member : .augmentedLagrangian node base ∈ session.models) (x : Tensor α)
    (out : Option (Tensor α)) :
    (node.multiplierEstimate base.oracle x out).outcome session.store =
      node.estimateAt (node.penaltyIn session.store.penalties) base.constraintMeaning x out :=
  (AugmentedLagrangian.answers_multiplierEstimate sound.family member x out _ sound.ready).agrees
    trivial

theorem outcome_constraints (member : model ∈ session.models) (x : Tensor α)
    (out : Option (Tensor α)) :
    (model.oracle.constraints x out).outcome session.store =
      model.constraintMeaning.constraintsAt x out :=
  ((Model.realizesConstraints sound.family member).constraints x out _ sound.ready).agrees trivial

theorem outcome_project (member : model ∈ session.models) (v : Tensor α)
    (out : Option (Tensor α)) :
    (model.oracle.project v out).outcome session.store = model.constraintMeaning.projectAt v out :=
  ((Model.realizesConstraints sound.family member).project v out _ sound.ready).agrees trivial

theorem outcome_distance (member : model ∈ session.models) (v : Tensor α) :
    (model.oracle.distance v).outcome session.store = model.constraintMeaning.distanceAt v :=
  ((Model.realizesConstraints sound.family member).distance v _ sound.ready).agrees trivial

theorem outcome_jacobianProduct (member : model ∈ session.models) (x v : Tensor α)
    (out : Option (Tensor α)) :
    (model.oracle.jacobianProduct x v out).outcome session.store =
      model.constraintMeaning.jacobianProductAt x v out :=
  ((Model.realizesConstraints sound.family member).jacobianProduct x v out _ sound.ready).agrees
    trivial

theorem outcome_adjointProduct (member : model ∈ session.models) (x v : Tensor α)
    (out : Option (Tensor α)) :
    (model.oracle.adjointProduct x v out).outcome session.store =
      model.constraintMeaning.adjointProductAt x v out :=
  ((Model.realizesConstraints sound.family member).adjointProduct x v out _ sound.ready).agrees
    trivial

theorem outcome_proximal (member : model ∈ session.models) (x : Tensor α) (step : α)
    (out : Option (Tensor α)) :
    (model.oracle.proximal x step out).outcome session.store =
      model.termMeaning.proximalAt x step out :=
  ((Model.realizesTerm sound.family member).proximal x step out _ sound.ready).agrees trivial

theorem outcome_proximalWithValue (member : model ∈ session.models) (x : Tensor α) (step : α)
    (out : Option (Tensor α)) :
    (model.oracle.proximalWithValue x step out).outcome session.store =
      model.termMeaning.proximalWithValueAt x step out :=
  ((Model.realizesTerm sound.family member).proximalWithValue x step out _ sound.ready).agrees trivial

theorem outcome_objective (member : model ∈ session.models) (repeatable : model.Repeatable)
    (x : Tensor α) :
    (model.oracle.objective x).outcome session.store =
      (model.smoothMeaning session.store.penalties).objectiveAt x :=
  ((Model.realizesSmooth sound.family member x).objective _ sound.ready).agrees repeatable

theorem outcome_gradient (member : model ∈ session.models) (repeatable : model.Repeatable)
    (x : Tensor α) (out : Option (Tensor α)) :
    (model.oracle.gradient x out).outcome session.store =
      (model.smoothMeaning session.store.penalties).gradientAt x out :=
  ((Model.realizesSmooth sound.family member x).gradient out _ sound.ready).agrees repeatable

/-- Points at which an objective is returned have the declared length. -/
theorem length_of_objective (member : model ∈ session.models) (repeatable : model.Repeatable)
    {x : List α} {f : α}
    (returned : (model.oracle.objective (.vector x)).outcome session.store = .ok f) :
    x.length = model.header.nvar := by
  rw [sound.outcome_objective member repeatable] at returned
  obtain ⟨_, checked, _⟩ := exists_of_bind_eq_ok returned
  rw [Model.nvar_smoothMeaning] at checked
  exact List.head_eq_of_cons_eq (shape_eq_of_check checked)

theorem length_constraints (member : model ∈ session.models) {x : Tensor α} {c : List α}
    (returned : (model.oracle.constraints x none).outcome session.store = .ok c) :
    c.length = model.header.ncon :=
  (((Model.realizesConstraints sound.family member).constraints x none _ sound.ready).good _
    returned).length.trans model.ncon_constraintMeaning

theorem length_jacobianProduct (member : model ∈ session.models) {x v : Tensor α} {p : List α}
    (returned : (model.oracle.jacobianProduct x v none).outcome session.store = .ok p) :
    p.length = model.header.ncon :=
  (((Model.realizesConstraints sound.family member).jacobianProduct x v none _ sound.ready).good _
    returned).length.trans model.ncon_constraintMeaning

theorem length_adjointProduct (member : model ∈ session.models) {x v : Tensor α} {p : List α}
    (returned : (model.oracle.adjointProduct x v none).outcome session.store = .ok p) :
    p.length = model.header.nvar :=
  (((Model.realizesConstraints sound.family member).adjointProduct x v none _ sound.ready).good _
    returned).length.trans model.nvar_constraintMeaning

theorem length_project (member : model ∈ session.models) {v : Tensor α} {z : List α}
    (returned : (model.oracle.project v none).outcome session.store = .ok z) :
    z.length = model.header.ncon :=
  (((Model.realizesConstraints sound.family member).project v none _ sound.ready).good _
    returned).length.trans model.ncon_constraintMeaning

theorem length_proximal (member : model ∈ session.models) {x : Tensor α} {step : α} {z : List α}
    (returned : (model.oracle.proximal x step none).outcome session.store = .ok z) :
    z.length = model.header.nvar :=
  (((Model.realizesTerm sound.family member).proximal x step none _ sound.ready).good _
    returned).length.trans model.nvar_termMeaning

theorem length_gradient (member : model ∈ session.models) {x : Tensor α} {g : List α}
    (returned : (model.oracle.gradient x none).outcome session.store = .ok g) :
    g.length = model.header.nvar :=
  (((Model.realizesSmooth sound.family member x).gradient none _ sound.ready).good _
    returned).length.trans (model.nvar_smoothMeaning session.store.penalties)

end Sound

/-! ### A session with exact scalars

One variable `x` is to be pinned to zero: the constraint map is `c(x) = x`, and zero is the only
admissible value. -/

/-- The constraint map `c(x) = x`, without a set. -/
noncomputable def pinLeaf : Model ℝ :=
  .expression ⟨⟨1, 1, [0], [0], true, "pin"⟩, .constant 0, [.entry 0]⟩

/-- The same map, with the set that holds zero only. -/
noncomputable def pin : Model ℝ :=
  .tailored ⟨⟨0, ⟨1, 1, [0], [0], true, "pin"⟩, true⟩, some .zero, none⟩ pinLeaf

/-- The constructions of both models, in this order. -/
noncomputable def pinActions : List (Action ℝ) :=
  [.build (.ofExpressions (.constant 0) (.vector [0]) (some { expressions := [.entry 0] }) none true
      "pin"),
    .build (.tailor pinLeaf {} (some .zero) none true)]

/-- The session in which both models were built. -/
noncomputable def pinned : Session ℝ := ({} : Session ℝ).run pinActions

theorem models_pinned : pinned.models = [pin, pinLeaf] := rfl

theorem reachable_pinned : pinned.Reachable := by
  refine Reachable.run .start ⟨⟨?_, ?_, trivial⟩, ⟨⟨?_, ?_⟩, ?_, trivial⟩, trivial⟩
  · intro constraintMap same
    cases same
    exact ConstraintMap.consistent_of_undeclared rfl
  · intro base same
    cases same
  · intro set same
    cases same
    exact ConstraintSet.keepsLength_zero
  · intro g same
    cases same
  · intro base same
    cases same
    exact .head _

/-! ### A session with a backend

One variable and two constraints: the constraint map is `c(x) = (x, x)`, with `c_1 <= 1` and
`0 <= c_2 <= 1`. -/

/-- The objective `x` and the constraint map `c(x) = (x, x)`. -/
noncomputable def boxBackend : Backend ℝ where
  name := "box"
  nvar := 1
  ncon := 2
  x0 := .vector [0]
  y0 := .vector [0, 0]
  minimize := true
  lower := .vector [none]
  upper := .vector [none]
  lowerCon := .vector [none, some 0]
  upperCon := .vector [some 1, some 1]
  closable := true
  objective x := .ok (Vec.total x)
  gradient _ := .ok [1]
  constraints x := .ok (x ++ x)
  jacobianProduct _ v := .ok (v ++ v)
  adjointProduct _ w := .ok [Vec.total w]

theorem fillsBuffers_boxBackend : boxBackend.FillsBuffers 1 2 where
  gradient := by
    intro x g _ returned
    cases returned
    rfl
  constraints := by
    intro x c length returned
    cases returned
    simp [length]
  jacobianProduct := by
    intro x v p _ length returned
    cases returned
    simp [length]
  adjointProduct := by
    intro x w p _ _ returned
    cases returned
    rfl

/-- The model of the backend, as `boxed` has it. -/
noncomputable def boxLeaf : BackendLeaf ℝ where
  serial := 1
  header := ⟨1, 2, [0], [0, 0], true, "box"⟩
  backendSerial := 0
  backend := boxBackend
  variableBox := [⟨none, none⟩]
  constraintBox := [⟨none, some 1⟩, ⟨some 0, some 1⟩]
  ownsBackend := true

/-- Its slack reformulation, which owns it. -/
noncomputable def boxSlack : Wrapper ℝ where
  serial := 2
  header := ⟨3, 2, [0, 0, 0], [0, 0], true, "slack"⟩
  ownsBase := true

/-- The backend is handed in, and both models are built. -/
noncomputable def boxActions : List (Action ℝ) :=
  [.provide boxBackend, .build (.ofBackend 0 boxBackend (some "box") true),
    .build (.withSlacks (.backend boxLeaf) (some "slack") true)]

/-- The session in which both models were built. -/
noncomputable def boxed : Session ℝ := ({} : Session ℝ).run boxActions

theorem boxLeaf_mem_boxed : .backend boxLeaf ∈ boxed.models := .tail _ (.head _)

theorem boxSlack_mem_boxed : .slack boxSlack (.backend boxLeaf) ∈ boxed.models := .head _

theorem reachable_boxed : boxed.Reachable := by
  refine Reachable.run .start ⟨trivial, ⟨fillsBuffers_boxBackend, ?_, .head _⟩,
    ⟨trivial, ?_, trivial⟩, trivial⟩
  · intro base same
    cases same
  · intro base same
    cases same
    exact .head _

/-! ### A session with a backend that fails at some points -/

/-- The backend of `boxed`, with constraint values up to `x = 1` only. -/
noncomputable def limitedBackend : Backend ℝ :=
  { boxBackend with
    constraints := fun x =>
      if Vec.total x ≤ 1 then .ok (x ++ x) else .error (.evaluationFailed .constraints) }

theorem fillsBuffers_limitedBackend : limitedBackend.FillsBuffers 1 2 where
  gradient := fillsBuffers_boxBackend.gradient
  constraints := by
    intro x c length returned
    have within : (if Vec.total x ≤ 1 then .ok (x ++ x)
      else .error (.evaluationFailed .constraints) : Except (Error ℝ) (List ℝ)) = .ok c := returned
    split at within
    · exact fillsBuffers_boxBackend.constraints length within
    · cases within
  jacobianProduct := fillsBuffers_boxBackend.jacobianProduct
  adjointProduct := fillsBuffers_boxBackend.adjointProduct

/-- The model of the backend. -/
noncomputable def limitedLeaf : BackendLeaf ℝ := { boxLeaf with backend := limitedBackend }

/-- The backend is handed in, and its model is built. -/
noncomputable def limited : Session ℝ := ({} : Session ℝ).run
  [.provide limitedBackend, .build (.ofBackend 0 limitedBackend (some "box") true)]

theorem limitedLeaf_mem_limited : .backend limitedLeaf ∈ limited.models := .head _

theorem reachable_limited : limited.Reachable := by
  refine Reachable.run .start ⟨trivial, ⟨fillsBuffers_limitedBackend, ?_, .head _⟩, trivial⟩
  intro base same
  cases same

end Session

end CompositeModels
