/-
Module: CompositeModels.Proofs.PenaltyState
Purpose: The state of an augmented Lagrangian is its penalty data and nothing else. The data in force
  are those of the last update that was accepted, with the derived terms that belong to them, and the
  model answers every call as one that is built anew with these data would.
Main exports: AugmentedLagrangian.accept, AugmentedLagrangian.lastAccepted,
  AugmentedLagrangian.penalty_perform, AugmentedLagrangian.penalty_run,
  AugmentedLagrangian.parameters_determine_answers
-/
import CompositeModels.Proofs.Session

namespace CompositeModels.AugmentedLagrangian

variable {α : Type} [Elementary α]

/-! ### The last accepted update -/

/-- The penalty parameters and multipliers after an action, if those before it are given. Only an update
of this model with admissible data changes them. -/
def accept (node : AugmentedLagrangian α) (ncon : Nat) (current : Tensor α × Tensor α) :
    Action α → Tensor α × Tensor α
  | .update other _ mu y =>
      if other.serial = node.serial ∧ Penalty.Admissible ncon mu y then (mu, y) else current
  | _ => current

/-- The penalty parameters and multipliers of the last accepted update, or the initial ones. -/
def lastAccepted (node : AugmentedLagrangian α) (ncon : Nat) (initial : Tensor α × Tensor α)
    (actions : List (Action α)) : Tensor α × Tensor α :=
  actions.foldl (node.accept ncon) initial

/-- Every action but an update leaves all penalty data alone. -/
theorem penalties_perform {session : Session α} (sound : session.Sound) {action : Action α}
    (admits : session.Admits action)
    (noUpdate : ∀ node base mu y, action ≠ .update node base mu y) :
    (session.perform action).store.penalties = session.store.penalties := by
  rcases sound with ⟨family, ready⟩
  cases action with
  | provide backend => rfl
  | build construction =>
      simp only [Session.perform]
      cases construction.builds admits.1 with
      | refused cause run => rw [run _ ready.unrevised]
      | granted template events run gives =>
          rw [run _ ready.unrevised]
          rfl
  | call model call => exact (Model.answers_call family admits call _ ready).keeps.inForce
  | ask node base question =>
      exact (Feasibility.answers_ask family admits question _ ready).keeps.inForce
  | estimate node base x out =>
      exact (answers_multiplierEstimate family admits x out _ ready).keeps.inForce
  | update node base mu y => exact absurd rfl (noUpdate node base mu y)
  | close model => exact (Store.Ready.close model ready).inForce

/-- One action changes the penalty data in force exactly as `accept` says. -/
theorem penalty_perform {session : Session α} (sound : session.Sound)
    {node : AugmentedLagrangian α} {base : Model α}
    (member : .augmentedLagrangian node base ∈ session.models) {action : Action α}
    (admits : session.Admits action) {current : Tensor α × Tensor α}
    (inForce : node.penalty session.store = .ofVectors current.1 current.2) :
    node.penalty (session.perform action).store =
      .ofVectors (node.accept base.header.ncon current action).1
        (node.accept base.header.ncon current action).2 := by
  by_cases isUpdate : ∃ other otherBase mu y, action = .update other otherBase mu y
  · rcases isUpdate with ⟨other, otherBase, mu, y, rfl⟩
    by_cases same : other.serial = node.serial
    · -- Only this model has its serial number, so it is the one that is updated.
      have models : Model.augmentedLagrangian other otherBase = .augmentedLagrangian node base :=
        sound.family.distinct admits member (congrArg some same) rfl
      cases models
      by_cases admissible : Penalty.Admissible base.header.ncon mu y
      · simp only [accept, admissible, and_self, if_true]
        rw [penalty, Session.penalties_perform_update admissible, Table.get?_set_self]
        rfl
      · simp only [accept, admissible, and_false, if_false]
        rw [Session.store_perform_update_of_refused admissible]
        exact inForce
    · simp only [accept, same, false_and, if_false]
      by_cases admissible : Penalty.Admissible otherBase.header.ncon mu y
      · have different : node.serial ≠ other.serial := fun equal => same equal.symm
        rw [penalty, Session.penalties_perform_update admissible,
          Table.get?_set_of_ne _ _ different]
        exact inForce
      · rw [Session.store_perform_update_of_refused admissible]
        exact inForce
  · have kept := penalties_perform sound admits fun other otherBase mu y equal =>
      isUpdate ⟨other, otherBase, mu, y, equal⟩
    have unchanged : node.accept base.header.ncon current action = current := by
      cases action with
      | update other otherBase mu y => exact absurd ⟨other, otherBase, mu, y, rfl⟩ isUpdate
      | _ => rfl
    rw [unchanged, penalty, kept]
    exact inForce

/-- What one action keeps, a run keeps: in force are the data of the last accepted update. -/
theorem penalty_run {session : Session α} (reachable : session.Reachable)
    {node : AugmentedLagrangian α} {base : Model α}
    (member : .augmentedLagrangian node base ∈ session.models) {actions : List (Action α)}
    (admitted : session.AdmitsAll actions) {initial : Tensor α × Tensor α}
    (inForce : node.penalty session.store = .ofVectors initial.1 initial.2) :
    node.penalty (session.run actions).store =
      .ofVectors (node.lastAccepted base.header.ncon initial actions).1
        (node.lastAccepted base.header.ncon initial actions).2 := by
  induction actions generalizing session initial with
  | nil => exact inForce
  | cons action rest ih =>
      rcases admitted with ⟨admits, others⟩
      exact ih (reachable.step admits) (Session.mem_perform member action) others
        (penalty_perform reachable.sound member admits inForce)

/-- The data of the last accepted update are admissible if the initial ones are. -/
theorem admissible_lastAccepted (node : AugmentedLagrangian α) {ncon : Nat}
    {initial : Tensor α × Tensor α} (admissible : Penalty.Admissible ncon initial.1 initial.2)
    (actions : List (Action α)) :
    Penalty.Admissible ncon (node.lastAccepted ncon initial actions).1
      (node.lastAccepted ncon initial actions).2 := by
  induction actions generalizing initial with
  | nil => exact admissible
  | cons action rest ih =>
      apply ih
      cases action with
      | update other otherBase mu y =>
          simp only [accept]
          split
          · next accepted => exact accepted.2
          · exact admissible
      | _ => exact admissible

/-! ### Rebuilding -/

/-- Apart from its serial number, the answers of an augmented Lagrangian depend on its header and on the
penalty data in force. -/
theorem answer_congr {node rebuilt : AugmentedLagrangian α} {penalties : Table (Penalty α)}
    (header : node.header = rebuilt.header)
    (inForce : node.penaltyIn penalties = rebuilt.penaltyIn penalties) (base : Model α)
    (call : Call α) :
    (Model.augmentedLagrangian node base).answer penalties call =
      (Model.augmentedLagrangian rebuilt base).answer penalties call := by
  cases call <;>
    simp only [Model.answer, Model.smoothMeaning, Model.constraintMeaning, Model.termMeaning,
      smoothMeaning, termMeaning, Unconstrained.constraintMeaning, header, inForce]

theorem estimateAt_congr {node rebuilt : AugmentedLagrangian α} (header : node.header = rebuilt.header)
    (penalty : Penalty α) (base : ConstraintMeaning α) (x : Tensor α) (out : Option (Tensor α)) :
    node.estimateAt penalty base x out = rebuilt.estimateAt penalty base x out := by
  simp only [estimateAt, header]

/-- An update is accepted exactly for admissible data. -/
theorem outcome_update_eq_ok_iff (node : AugmentedLagrangian α) (base : Header α) (mu y : Tensor α)
    (store : Store α) :
    (node.update base mu y).outcome store = .ok ⟨⟩ ↔ Penalty.Admissible base.ncon mu y := by
  rcases node.update_cases base mu y store with ⟨refused, cause, run⟩ | ⟨admissible, event, run⟩
  · rw [Eval.outcome_of_run_error run]
    exact ⟨fun same => (nomatch same), fun admissible => absurd admissible refused⟩
  · rw [Eval.outcome_of_run_ok run]
    exact ⟨fun _ => admissible, fun _ => rfl⟩

/-- A refused update changes nothing. -/
theorem after_update_of_refused {node : AugmentedLagrangian α} {base : Header α} {mu y : Tensor α}
    {store : Store α} {cause : Error α}
    (refused : (node.update base mu y).outcome store = .error cause) :
    (node.update base mu y).after store = store := by
  rcases node.update_cases base mu y store with ⟨_, _, run⟩ | ⟨_, _, run⟩
  · exact Eval.after_of_run_error run
  · rw [Eval.outcome_of_run_ok run] at refused
    cases refused

/-- Build an augmented Lagrangian on a repeatable base, and use the session as you like. Then

* in force are the data of the last accepted update, and they fit the base;
* an update is accepted exactly for admissible data, and one that is refused changes nothing;
* a model that is built anew with the data in force answers every call alike. -/
theorem parameters_determine_answers {session : Session α} (reachable : session.Reachable) {base : Model α}
    (known : base ∈ session.models) (repeatable : base.Repeatable) {mu y : Tensor α}
    {name : Option String} {ownsBase : Bool} {node : AugmentedLagrangian α} {started : Store α}
    (built : (build base.header mu y name ownsBase).run session.store = .ok node started)
    {actions : List (Action α)}
    (admitted : (session.perform (.build (.augmented base mu y name ownsBase))).AdmitsAll actions) :
    let later := ((session.perform (.build (.augmented base mu y name ownsBase))).run actions).store
    let inForce := node.lastAccepted base.header.ncon (mu, y) actions
    ((node.penalty later).mu = inForce.1 ∧ (node.penalty later).y = inForce.2 ∧
        (node.penalty later).Fits base.header.ncon) ∧
      (∀ mu' y', ((node.update base.header mu' y').outcome later = .ok ⟨⟩ ↔
          Penalty.Admissible base.header.ncon mu' y') ∧
        ∀ cause, (node.update base.header mu' y').outcome later = .error cause →
          (node.update base.header mu' y').after later = later) ∧
      ∃ rebuilt restarted,
        (build base.header inForce.1 inForce.2 name ownsBase).run later = .ok rebuilt restarted ∧
          (∀ call, ((node.oracle base.oracle).call call).outcome later =
            ((rebuilt.oracle base.oracle).call call).outcome restarted) ∧
          ∀ x out, (node.multiplierEstimate base.oracle x out).outcome later =
            (rebuilt.multiplierEstimate base.oracle x out).outcome restarted := by
  intro later inForce
  have builtModel : (Construction.augmented base mu y name ownsBase).build.run session.store =
      .ok (.augmentedLagrangian node base) started := run_bind_of_ok built
  have first := Session.perform_build_of_ok builtModel
  have admits : session.Admits (.build (.augmented base mu y name ownsBase)) :=
    ⟨trivial, fun _ same => Option.some.inj same ▸ known, trivial⟩
  have member : .augmentedLagrangian node base ∈
      (session.perform (.build (.augmented base mu y name ownsBase))).models := by
    rw [first]
    exact .head _
  have laterReachable := (reachable.step admits).run admitted
  have sound := laterReachable.sound
  have laterMember := Session.mem_run member actions
  obtain ⟨isOf, new, events, rfl⟩ := isOf_of_run_build reachable.sound.ready.unrevised built
  have admissible : Penalty.Admissible base.header.ncon inForce.1 inForce.2 :=
    node.admissible_lastAccepted isOf.admissible actions
  have penaltyEq : node.penalty later = .ofVectors inForce.1 inForce.2 := by
    apply penalty_run (reachable.step admits) member admitted
    rw [first, ← isOf.penalty]
    exact reachable.sound.ready.penaltyIn_new new
  refine ⟨⟨?_, ?_, ?_⟩, fun mu' y' => ⟨?_, ?_⟩, ?_⟩
  · rw [penaltyEq]
    rfl
  · rw [penaltyEq]
    rfl
  · rw [penaltyEq]
    exact Penalty.fits_ofVectors admissible
  · exact node.outcome_update_eq_ok_iff base.header mu' y' later
  · exact fun cause refused => after_update_of_refused refused
  · obtain ⟨rebuilt, events, run, header, serial, penaltyData⟩ := run_build isOf admissible later
    have admitsAgain : ((session.perform
        (.build (.augmented base mu y name ownsBase))).run actions).Admits
          (.build (.augmented base inForce.1 inForce.2 name ownsBase)) :=
      ⟨trivial, fun _ same => Option.some.inj same ▸ sound.family.bases laterMember rfl, trivial⟩
    -- The model that is built anew belongs to a session that can be reached as well.
    have again := (laterReachable.build admitsAgain (run_bind_of_ok run)).sound
    have sameData : node.penaltyIn later.penalties = rebuilt.penaltyIn later.penalties := by
      rw [sound.ready.penaltyIn_new serial, penaltyData]
      exact penaltyEq
    refine ⟨rebuilt, _, run, fun call => ?_, fun x out => ?_⟩
    · have kept := sound.outcome_call laterMember repeatable call
      have anew := again.outcome_call (.head _) repeatable call
      rw [answer_congr header.symm sameData base call] at kept
      exact kept.trans anew.symm
    · have kept := sound.outcome_multiplierEstimate laterMember x out
      have anew := again.outcome_multiplierEstimate (.head _) x out
      rw [sameData, estimateAt_congr header.symm] at kept
      exact kept.trans anew.symm

/-- An update, an evaluation, and an update that is refused for its sign. -/
noncomputable def pinUpdates (node : AugmentedLagrangian ℝ) : List (Action ℝ) :=
  [.update node Session.pin (.vector [1 + 1]) (.vector [1]),
    .call (.augmentedLagrangian node Session.pin) (.objective (.vector [-1])),
    .update node Session.pin (.vector [-1]) (.vector [0])]

theorem admissible_pin {m y : ℝ} (positive : 0 < m) :
    Penalty.Admissible 1 (.vector [m]) (.vector [y]) := by
  refine ⟨rfl, rfl, ?_⟩
  simp [Vec.allPositive, positive]

theorem exists_build_pin : ∃ node started,
    (build Session.pin.header (.vector [1]) (.vector [0]) none true).run Session.pinned.store =
      .ok node started := by
  have isOf : IsOf ⟨⟨0, ⟨1, 0, [0], [], true, "pin-al"⟩, true⟩, .ofVectors (.vector [1]) (.vector [0])⟩
      Session.pin.header (.vector [1]) (.vector [0]) none true := {
    constrained := rfl
    admissible := admissible_pin one_pos
    header := rfl
    ownsBase := rfl
    penalty := rfl }
  obtain ⟨node, events, run, _⟩ := run_build isOf isOf.admissible Session.pinned.store
  exact ⟨node, _, run⟩

theorem parameters_determine_answers_pin : ∃ node started,
    (build Session.pin.header (.vector [1]) (.vector [0]) none true).run Session.pinned.store =
        .ok node started ∧
      let later := ((Session.pinned.perform (.build (.augmented Session.pin (.vector [1])
        (.vector [0]) none true))).run (pinUpdates node)).store
      (node.penalty later).mu = .vector [2] ∧ (node.penalty later).y = .vector [1] := by
  obtain ⟨node, started, built⟩ := exists_build_pin
  have known : Session.pin ∈ Session.pinned.models := by
    rw [Session.models_pinned]
    exact .head _
  have builtModel : (Construction.augmented Session.pin (.vector [1]) (.vector [0]) none
      true).build.run Session.pinned.store = .ok (.augmentedLagrangian node Session.pin) _ :=
    run_bind_of_ok built
  have member : .augmentedLagrangian node Session.pin ∈ (Session.pinned.perform
      (.build (.augmented Session.pin (.vector [1]) (.vector [0]) none true))).models := by
    rw [Session.perform_build_of_ok builtModel]
    exact .head _
  have admitted : (Session.pinned.perform (.build (.augmented Session.pin (.vector [1])
      (.vector [0]) none true))).AdmitsAll (pinUpdates node) := ⟨member, member, member, trivial⟩
  have refused : ¬ Penalty.Admissible 1 (.vector [(-1 : ℝ)]) (.vector [0]) := by
    intro admissible
    have positive := (Penalty.fits_ofVectors admissible).positive (-1) (by simp [Penalty.ofVectors])
    norm_num at positive
  have inForce : node.lastAccepted 1 (.vector [1], .vector [0]) (pinUpdates node) =
      (.vector [2], .vector [1]) := by
    simp [lastAccepted, pinUpdates, accept, refused, admissible_pin (m := 2) two_pos,
      one_add_one_eq_two]
  obtain ⟨⟨mu, y, _⟩, _⟩ :=
    parameters_determine_answers Session.reachable_pinned known Session.pin.repeatable built admitted
  exact ⟨node, started, built, mu.trans (congrArg Prod.fst inForce),
    y.trans (congrArg Prod.snd inForce)⟩

end CompositeModels.AugmentedLagrangian
