/-
Module: CompositeModels.Proofs.Release
Purpose: Resources over whole runs. Users build, share, ask and close models, also by blocks that close a
  model when they end, be it after a failure. All this comes down to a sequence of actions, by the end of
  which each backend was closed once for each leaf that owns it and that a closing has reached.
Main exports: Script, Script.run, Script.trace, Script.closings, Session.Released,
  Script.resources_are_released
-/
import Mathlib.Data.Set.Card
import CompositeModels.Proofs.Closing.Accounts

namespace CompositeModels

variable {α β : Type}

/-! ### Scripts -/

namespace Session

variable [Elementary α]

theorem run_append (session : Session α) (first second : List (Action α)) :
    session.run (first ++ second) = (session.run first).run second := by
  induction first generalizing session with
  | nil => rfl
  | cons action rest ih => exact ih _

/-- How an action ends for those who take it. -/
def outcome (session : Session α) : Action α → Except (Error α) Unit
  | .provide _ | .close _ => .ok ()
  | .build construction => (construction.build.outcome session.store).map fun _ => ()
  | .call model call => ((model.oracle.call call).outcome session.store).map fun _ => ()
  | .ask node base question => ((node.ask base.oracle question).outcome session.store).map fun _ => ()
  | .estimate node base x out =>
      ((node.multiplierEstimate base.oracle x out).outcome session.store).map fun _ => ()
  | .update node base mu y => (node.update base.header mu y).outcome session.store

/-- Run a block in a session, then close the model. -/
def closingAfter (session : Session α) (model : Model α) (block : Session α → β × Session α) :
    β × Session α :=
  let ((outcome, later), store) := model.closingAfter (fun store =>
    let (outcome, later) := block { session with store := store }
    ((outcome, later), later.store)) session.store
  (outcome, { later with store := store })

theorem closingAfter_eq (session : Session α) (model : Model α)
    (block : Session α → β × Session α) :
    session.closingAfter model block =
      ((block session).1, (block session).2.perform (.close model)) := rfl

end Session

/-- What users write. Whatever fails ends the blocks around it, up to the next attempt. -/
inductive Script (α : Type) where
  | done
  /-- Fail. -/
  | raise (cause : Error α)
  /-- Do something, and go on if it does not fail. -/
  | act (action : Action α) (next : Script α)
  /-- Run a block that ends by closing the model, and go on if the block does not fail. -/
  | within (model : Model α) (body next : Script α)
  /-- Run a block, and go on in any case. -/
  | attempt (body next : Script α)

namespace Script

variable [Elementary α]

/-- How a script ends, and the session that it leaves. -/
def run : Script α → Session α → Except (Error α) Unit × Session α
  | .done, session => (.ok (), session)
  | .raise cause, session => (.error cause, session)
  | .act action next, session =>
      match session.outcome action with
      | .ok () => next.run (session.perform action)
      | .error cause => (.error cause, session.perform action)
  | .within model body next, session =>
      match session.closingAfter model body.run with
      | (.ok (), later) => next.run later
      | (.error cause, later) => (.error cause, later)
  | .attempt body next, session => next.run (body.run session).2

/-- The actions of a script, in the order in which they are taken. -/
def trace : Script α → Session α → List (Action α)
  | .done, _ | .raise _, _ => []
  | .act action next, session =>
      action :: match session.outcome action with
        | .ok () => next.trace (session.perform action)
        | .error _ => []
  | .within model body next, session =>
      body.trace session ++ .close model :: match (body.run session).1 with
        | .ok () => next.trace ((body.run session).2.perform (.close model))
        | .error _ => []
  | .attempt body next, session => body.trace session ++ next.trace (body.run session).2

/-- The models that a script closes. -/
def closings (script : Script α) (session : Session α) : List (Model α) :=
  (script.trace session).filterMap Action.closes?

section Within

variable {session : Session α} (model : Model α) {body : Script α} (next : Script α)

/-- A block that ends well closes its model, and the script goes on. -/
theorem run_within_of_ok (ended : (body.run session).1 = .ok ()) :
    (within model body next).run session =
      next.run ((body.run session).2.perform (.close model)) := by
  simp only [run]
  rw [Session.closingAfter_eq, ended]

/-- A block that fails closes its model, and fails for the same cause. -/
theorem run_within_of_error {cause : Error α} (failed : (body.run session).1 = .error cause) :
    (within model body next).run session =
      (.error cause, (body.run session).2.perform (.close model)) := by
  simp only [run]
  rw [Session.closingAfter_eq, failed]

end Within

/-- A script leaves the session that its actions lead to. -/
theorem run_eq_trace (script : Script α) (session : Session α) :
    (script.run session).2 = session.run (script.trace session) := by
  induction script generalizing session with
  | done => rfl
  | raise cause => rfl
  | act action next ih =>
      simp only [run, trace, Session.run]
      cases ended : session.outcome action with
      | ok => exact ih _
      | error cause => rfl
  | within model body next ihBody ihNext =>
      simp only [trace, Session.run_append, Session.run, ← ihBody]
      cases ended : (body.run session).1 with
      | ok =>
          rw [run_within_of_ok model next ended]
          exact ihNext _
      | error cause =>
          rw [run_within_of_error model next ended]
          rfl
  | attempt body next ihBody ihNext =>
      rw [trace, Session.run_append, ← ihBody, ← ihNext]
      rfl

end Script

/-! ### Every run -/

namespace Session

/-- What holds of a session in which these models were closed. -/
structure Released (session : Session α) (closings : List (Model α)) : Prop where
  /-- A model is closed if it is held by one that was closed, and only then. -/
  isClosed : ∀ {model serial}, model ∈ session.models → model.serial? = some serial →
    (session.store.isClosed serial = true ↔ ∃ top ∈ closings, top.Holds model)
  /-- A backend was closed once for each leaf that owns it and is held by a model that was closed. -/
  closings : ∀ backend, ((session.store.tally backend).closed : ℕ∞) =
    Set.encard {leaf | leaf ∈ session.models ∧ leaf.closesBackend backend = true ∧
      ∃ top ∈ closings, top.Holds leaf}
  /-- The lines of closings are those of the closed models, one for each that has a line. -/
  lines : ∃ order : List (Model α), order.Nodup ∧
    (∀ model, model ∈ order ↔ model ∈ session.models ∧ model.isClosed session.store = true) ∧
    session.store.log.filter Event.isRelease = order.filterMap Model.releaseLine?
  /-- A closing records the lines of what the model holds and what is still open, from the top down. -/
  closing : ∀ {model}, model ∈ session.models → (model.close session.store).log =
    session.store.log ++ (model.chain.filter (·.isOpen session.store)).filterMap Model.releaseLine?

variable {session : Session α} {closings order : List (Model α)}

theorem Accounts.released (accounts : session.Accounts closings order) (numbered : session.Numbered) :
    session.Released closings where
  isClosed := accounts.closed
  closings := by
    classical
    intro backend
    have counted : {leaf | leaf ∈ session.models ∧ leaf.closesBackend backend = true ∧
        ∃ top ∈ closings, top.Holds leaf} =
        ((order.filter (·.closesBackend backend)).toFinset : Set (Model α)) := by
      ext leaf
      rw [List.coe_toFinset]
      constructor
      · rintro ⟨member, closes, held⟩
        obtain ⟨serial, known⟩ := Model.exists_serial_of_closesBackend closes
        have closed := (accounts.closed member known).2 held
        exact List.mem_filter.2 ⟨accounts.mem_order.2 ⟨member,
          Model.isClosed_eq_true_iff.2 ⟨serial, known, closed⟩⟩, closes⟩
      · intro inside
        obtain ⟨inOrder, closes⟩ := List.mem_filter.1 inside
        obtain ⟨member, isClosed⟩ := accounts.mem_order.1 inOrder
        obtain ⟨serial, known, closed⟩ := Model.isClosed_eq_true_iff.1 isClosed
        exact ⟨member, closes, (accounts.closed member known).1 closed⟩
    rw [counted, Set.encard_coe_eq_coe_finsetCard,
      List.toFinset_card_of_nodup (accounts.nodup.filter _), ← List.countP_eq_length_filter,
      accounts.closings]
  lines := ⟨order, accounts.nodup, fun _ => accounts.mem_order, accounts.log⟩
  closing := fun member =>
    (Model.releases_close numbered.lineage member (accounts.settledIn numbered member)).log

end Session

/-- Resources are released exactly once, and only by closings that own them. For every script, whatever it
builds, shares, asks, updates and closes, with blocks that end well or fail: by its end a model is closed
if it is held by a model that the script closed, a backend was closed once for each such leaf that owns
it, and each such layer that owns its base has recorded its line once. A block always closes its model,
and it ends as its body does. -/
theorem Script.resources_are_released [Elementary α] {script : Script α}
    (knows : ({} : Session α).KnowsAll (script.trace {})) :
    (script.run {}).2.Released (script.closings {}) ∧
    ∀ (session : Session α) (model : Model α) (body next : Script α),
      ((body.run session).1 = .ok () →
        (within model body next).run session =
          next.run ((body.run session).2.perform (.close model))) ∧
      (∀ cause, (body.run session).1 = .error cause →
        (within model body next).run session =
          (.error cause, (body.run session).2.perform (.close model))) ∧
      ∀ serial, model.serial? = some serial →
        ((body.run session).2.perform (.close model)).store.isClosed serial = true := by
  obtain ⟨order, accounts⟩ := Session.Accounts.start.run Session.Numbered.start knows
  have numbered : (script.run {}).2.Numbered := by
    rw [run_eq_trace]
    exact Session.Numbered.start.run knows
  rw [← run_eq_trace] at accounts
  refine ⟨accounts.released numbered, fun session model body next => ⟨?_, ?_, ?_⟩⟩
  · exact run_within_of_ok model next
  · exact fun _ => run_within_of_error model next
  · exact fun _ known => model.isClosed_close_self _ known

/-! ### A run -/

namespace Session

/-- A tailored copy of the slack reformulation, which shares it. -/
noncomputable def boxCopy : Model ℝ :=
  .tailored ⟨⟨3, ⟨3, 2, [0, 0, 0], [0, 0], true, "slack"⟩, false⟩, none, none⟩
    (.slack boxSlack (.backend boxLeaf))

/-- The models of the box are built and its slack reformulation is shared. A first block closes the copy, a
second one asks the reformulation, fails and closes it. -/
noncomputable def boxScript : Script ℝ :=
  .act (.provide boxBackend) <|
  .act (.build (.ofBackend 0 boxBackend (some "box") true)) <|
  .act (.build (.withSlacks (.backend boxLeaf) (some "slack") true)) <|
  .act (.build (.tailor (.slack boxSlack (.backend boxLeaf)) {} none none false)) <|
  .within boxCopy .done <|
  .within (.slack boxSlack (.backend boxLeaf))
    (.act (.call (.slack boxSlack (.backend boxLeaf)) (.objective (.vector [1, 0, 1])))
      (.raise .missingAxis)) .done

theorem knowsAll_boxScript : ({} : Session ℝ).KnowsAll (boxScript.trace {}) := by
  have slack : ∀ base ∈ some (Model.backend boxLeaf), base ∈ [Model.backend boxLeaf] := by
    intro base same
    cases same
    exact .head _
  have copy : ∀ base ∈ some (Model.slack boxSlack (.backend boxLeaf)),
      base ∈ [.slack boxSlack (.backend boxLeaf), .backend boxLeaf] := by
    intro base same
    cases same
    exact .head _
  refine ⟨trivial, ?_, slack, copy, .head _, .tail _ (.head _), .tail _ (.head _), trivial⟩
  intro base same
  cases same

/-- Closing the copy releases nothing. The block that fails closes the reformulation and through it the leaf,
which is the only one that closes the backend. -/
theorem resources_are_released_box :
    (boxScript.run {}).1 = .error .missingAxis ∧
      ((boxScript.run {}).2.store.tally 0).closed = 1 ∧
      Set.encard {leaf | leaf ∈ (boxScript.run {}).2.models ∧ leaf.closesBackend 0 = true ∧
        ∃ top ∈ [boxCopy, .slack boxSlack (.backend boxLeaf)], top.Holds leaf} = 1 ∧
      (boxScript.run {}).2.store.log.filter Event.isRelease =
        [.baseReleased "slack" "box", .backendReleased "box"] := by
  obtain ⟨released, _⟩ := Script.resources_are_released knowsAll_boxScript
  exact ⟨rfl, rfl, (released.closings 0).symm, rfl⟩

end Session

end CompositeModels
