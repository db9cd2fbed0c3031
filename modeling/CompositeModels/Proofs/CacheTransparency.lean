/-
Module: CompositeModels.Proofs.CacheTransparency
Purpose: The residual that a feasibility problem keeps cannot be noticed. After any use of a session,
  the problem answers every call as one that is built anew would, and the residual that it keeps is
  the one at the point that it keeps.
Main exports: Feasibility.keeps_residual, Feasibility.run_residual_of_hit,
  Feasibility.run_residual_of_failure, Feasibility.exists_run_residual_of_miss,
  Feasibility.exists_ofLoss, Feasibility.exists_default, Feasibility.cache_transparent
-/
import CompositeModels.Proofs.Session

namespace CompositeModels.Feasibility

variable {α : Type} [Elementary α]

/-- Feasibility problems that differ in their serial numbers only have the same answers. -/
theorem answer_relabel (penalties : Table (Penalty α)) (serial : Nat) (node : Feasibility α)
    (base : Model α) (call : Call α) :
    (Model.feasibility { node with serial := serial } base).answer penalties call =
      (Model.feasibility node base).answer penalties call := by
  cases call <;> rfl

theorem reply_relabel (serial : Nat) (node : Feasibility α) (base : ConstraintMeaning α)
    (question : Question α) :
    ({ node with serial := serial } : Feasibility α).reply base question = node.reply base question := by
  cases question <;> rfl

/-- What a feasibility problem keeps is the difference of what its base now answers for the constraints
and for their projection at the point that is kept. -/
theorem keeps_residual {session : Session α} (sound : session.Sound) {node : Feasibility α}
    {base : Model α} (member : .feasibility node base ∈ session.models) {x : List α}
    (kept : (node.cache base.oracle session.store).point = some x) :
    ∃ values projected,
      (base.oracle.constraints (.vector x) none).outcome session.store = .ok values ∧
        (base.oracle.project (.vector values) none).outcome session.store = .ok projected ∧
        (node.cache base.oracle session.store).residual = Vec.sub values projected := by
  have baseMember : base ∈ session.models := sound.family.bases member rfl
  have residual := (sound.ready.cache member).point kept
  obtain ⟨values, valuesEq, residual⟩ := exists_of_bind_eq_ok residual
  obtain ⟨projected, projectedEq, residual⟩ := exists_of_bind_eq_ok residual
  refine ⟨values, projected, ?_, ?_, (Except.ok.inj residual).symm⟩
  · rw [sound.outcome_constraints baseMember, valuesEq]
  · rw [sound.outcome_project baseMember, projectedEq]

/-! ### One evaluation -/

section Evaluations

variable {node : Feasibility α} {base : Oracle α} {store later : Store α} {x : List α}

/-- A point with the entries of the last one is not evaluated again. -/
theorem run_residual_of_hit (hit : (node.cache base store).point.any (x == ·) = true) :
    (node.residual base x).run store = .ok (node.cache base store).residual store := by
  show EStateM.run (if (node.cache base store).point.any (x == ·) = true then
    (pure (node.cache base store).residual : Eval α (List α)) else _) store = _
  rw [if_pos hit]
  rfl

/-- Where the constraint values cannot be had, nothing is kept. -/
theorem run_residual_of_failure (miss : (node.cache base store).point.any (x == ·) = false)
    {cause : Error α}
    (failed : (base.constraints (.vector x)
      (some (.vector (node.cache base store).constraints))).run store = .error cause later) :
    (node.residual base x).run store = .error cause later := by
  show EStateM.run (if (node.cache base store).point.any (x == ·) = true then
    (pure (node.cache base store).residual : Eval α (List α)) else _) store = _
  rw [if_neg (Bool.eq_false_iff.1 miss)]
  exact run_bind_of_error failed

theorem cache_after_modifyCache (node : Feasibility α) (base : Oracle α)
    (change : ResidualCache α → ResidualCache α) (store : Store α) :
    node.cache base ((node.modifyCache base change).after store) = change (node.cache base store) := by
  show ((store.residuals.set node.serial (change (node.cache base store))).get? node.serial).getD _ = _
  rw [Table.get?_set_self]
  rfl

/-- What a base gives is kept, here for a base whose projections leave the store alone. -/
theorem exists_run_residual_of_miss (miss : (node.cache base store).point.any (x == ·) = false)
    {values projected : List α}
    (valuesRun : (base.constraints (.vector x)
      (some (.vector (node.cache base store).constraints))).run store = .ok values later)
    (projectedRun : ∀ any, (base.project (.vector values)
      (some (.vector (node.cache base store).residual))).run any = .ok projected any) :
    ∃ last, (node.residual base x).run store = .ok (Vec.sub values projected) last ∧
      last.revisions = later.revisions ∧
      node.cache base last = ⟨values, Vec.sub values projected, some x⟩ := by
  refine ⟨(node.modifyCache base fun cache =>
      { cache with residual := Vec.sub values projected, point := some x }).after
    ((node.modifyCache base fun cache => { cache with constraints := values }).after later),
    ?_, rfl, ?_⟩
  · show EStateM.run (if (node.cache base store).point.any (x == ·) = true then
      (pure (node.cache base store).residual : Eval α (List α)) else _) store = _
    rw [if_neg (Bool.eq_false_iff.1 miss)]
    exact (run_bind_of_ok valuesRun).trans (run_bind_of_ok (projectedRun _))
  · rw [cache_after_modifyCache, cache_after_modifyCache]

end Evaluations

/-! ### Problems with defaults -/

/-- The problem that is built with defaults. -/
noncomputable def ofDefaults (base : Header ℝ) (serial : Nat) : Feasibility ℝ :=
  ⟨⟨serial, ⟨base.nvar, 0, base.x0, [], true, Wrapper.derivedName base "-feas" none⟩, true⟩,
    .euclidSquared, ⟨1, 1⟩, 0, false, base.x0, Vec.ones base.nvar⟩

/-- The problem that is built with the given loss, and with defaults for the rest. -/
noncomputable def ofLoss (base : Header ℝ) (loss : Loss) (huber : Huber ℝ) (serial : Nat) :
    Feasibility ℝ :=
  { ofDefaults base serial with loss := loss, huber := huber }

/-- What is asked of a problem with the given loss. -/
noncomputable def Options.ofLoss (loss : Loss) (huber : Huber ℝ) : Options ℝ :=
  { loss := some loss.name, threshold := some huber.threshold, scale := some huber.scale }

/-- The defaults pass every check, whatever the loss is. -/
theorem run_build_ofLoss {base : Header ℝ} (nvar : 1 ≤ base.nvar) (x0 : base.x0.length = base.nvar)
    (loss : Loss) (huber : Huber ℝ) (threshold : 0 < huber.threshold) (scale : 0 < huber.scale)
    (store : Store ℝ) : (build base (.ofLoss loss huber) none true).run store =
      .ok (ofLoss base loss huber store.next)
        (store.issue 1 [.feasibilityBuilt base.name loss.name base.ncon false]) := by
  have nonnegative : Vec.allNonnegative (Vec.ones base.nvar : List ℝ) = true := by
    simp [Vec.allNonnegative, Vec.ones]
  have shapes : (checkVectors base.nvar [[base.nvar], [base.nvar], [base.nvar]] :
      Except (Error ℝ) Unit) = .ok () :=
    checkVectors_eq_ok_iff.2 (by simp)
  have known : Loss.ofName? loss.name = some loss := by cases loss <;> decide
  have valid : base.nvar ≠ 0 := by omega
  simp [build, Options.ofLoss, Eval.checkVectors, nonnegative, withProximalTerm, Header.replace,
    Header.make, x0, shapes, known, valid, threshold, scale]
  rfl

/-- In every session, a problem with any loss can be built on a known base with a valid header. -/
theorem exists_ofLoss {session : Session ℝ} (reachable : session.Reachable) {base : Model ℝ}
    (known : base ∈ session.models) (nvar : 1 ≤ base.header.nvar)
    (x0 : base.header.x0.length = base.header.nvar) (loss : Loss) (huber : Huber ℝ)
    (threshold : 0 < huber.threshold) (scale : 0 < huber.scale) :
    ∃ later : Session ℝ, later.Reachable ∧
      later.models = .feasibility (ofLoss base.header loss huber session.store.next) base ::
        session.models ∧
      later.store.penalties = session.store.penalties := by
  have admits : session.Admits (.build (.feasibilityProblem base (.ofLoss loss huber) none true)) :=
    ⟨trivial, fun _ same => Option.some.inj same ▸ known, trivial⟩
  exact ⟨_, reachable.build admits
    (run_bind_of_ok (run_build_ofLoss nvar x0 loss huber threshold scale _)), rfl, rfl⟩

/-- The defaults pass every check. -/
theorem run_build_default {base : Header ℝ} (nvar : 1 ≤ base.nvar) (x0 : base.x0.length = base.nvar)
    (store : Store ℝ) : (build base {} none true).run store =
      .ok (ofDefaults base store.next)
        (store.issue 1 [.feasibilityBuilt base.name Loss.euclidSquared.name base.ncon false]) :=
  run_build_ofLoss nvar x0 .euclidSquared ⟨1, 1⟩ one_pos one_pos store

/-- In every session, a problem with defaults can be built on a known base with a valid header. -/
theorem exists_default {session : Session ℝ} (reachable : session.Reachable) {base : Model ℝ}
    (known : base ∈ session.models) (nvar : 1 ≤ base.header.nvar)
    (x0 : base.header.x0.length = base.header.nvar) :
    ∃ later : Session ℝ, later.Reachable ∧
      later.models = .feasibility (ofDefaults base.header session.store.next) base ::
        session.models ∧
      later.store.penalties = session.store.penalties :=
  exists_ofLoss reachable known nvar x0 .euclidSquared ⟨1, 1⟩ one_pos one_pos

/-! ### Transparency -/

/-- Build a feasibility problem on a base that is a function of the point, and use the session as you
like. Then the residual that it keeps is the one at the point that it keeps, and a problem that is
built anew with the same arguments answers every call alike: it returns the same or fails for the same
cause. -/
theorem cache_transparent {session : Session α} (reachable : session.Reachable) {base : Model α}
    (known : base ∈ session.models) (pointFunction : base.PointFunction) {options : Options α}
    {name : Option String} {ownsBase : Bool} {node : Feasibility α} {started : Store α}
    (built : (build base.header options name ownsBase).run session.store = .ok node started)
    {actions : List (Action α)}
    (admitted : (session.perform
      (.build (.feasibilityProblem base options name ownsBase))).AdmitsAll actions) :
    let later := ((session.perform
      (.build (.feasibilityProblem base options name ownsBase))).run actions).store
    (∀ x, (node.cache base.oracle later).point = some x → ∃ values projected,
      (base.oracle.constraints (.vector x) none).outcome later = .ok values ∧
        (base.oracle.project (.vector values) none).outcome later = .ok projected ∧
        (node.cache base.oracle later).residual = Vec.sub values projected) ∧
      ∃ rebuilt restarted,
        (build base.header options name ownsBase).run later = .ok rebuilt restarted ∧
          (∀ call, ((node.oracle base.oracle).call call).outcome later =
            ((rebuilt.oracle base.oracle).call call).outcome restarted) ∧
          ∀ question, (node.ask base.oracle question).outcome later =
            (rebuilt.ask base.oracle question).outcome restarted := by
  intro later
  have builtModel : (Construction.feasibilityProblem base options name ownsBase).build.run
      session.store = .ok (.feasibility node base) started := run_bind_of_ok built
  have first := Session.perform_build_of_ok builtModel
  have admits : session.Admits (.build (.feasibilityProblem base options name ownsBase)) :=
    ⟨trivial, fun _ same => Option.some.inj same ▸ known, trivial⟩
  have laterReachable := (reachable.step admits).run admitted
  have sound := laterReachable.sound
  have member : .feasibility node base ∈ ((session.perform
      (.build (.feasibilityProblem base options name ownsBase))).run actions).models :=
    Session.mem_run (by rw [first]; exact .head _) actions
  have admitsAgain : ((session.perform
      (.build (.feasibilityProblem base options name ownsBase))).run actions).Admits
        (.build (.feasibilityProblem base options name ownsBase)) :=
    ⟨trivial, fun _ same => Option.some.inj same ▸ sound.family.bases member rfl, trivial⟩
  refine ⟨fun x kept => keeps_residual sound member kept, ?_⟩
  cases builds base.header options name ownsBase with
  | refused cause run =>
      rw [run _ reachable.sound.ready.unrevised] at built
      cases built
  | granted template events run _ =>
      rw [run _ reachable.sound.ready.unrevised] at built
      cases built
      -- The problem that is built anew belongs to a session that can be reached as well.
      have rebuilt := run _ sound.ready.unrevised
      have again := (laterReachable.build admitsAgain (run_bind_of_ok rebuilt)).sound
      refine ⟨_, _, rebuilt, fun call => ?_, fun question => ?_⟩
      · have kept := sound.outcome_call member pointFunction call
        have anew := again.outcome_call (.head _) pointFunction call
        rw [answer_relabel] at kept anew
        exact kept.trans anew.symm
      · have kept := sound.outcome_ask member pointFunction question
        have anew := again.outcome_ask (.head _) pointFunction question
        rw [reply_relabel] at kept anew
        exact kept.trans anew.symm

/-! ### A base that fails at some points -/

open Session (limitedBackend limitedLeaf)

/-- The problem that is built with defaults in `limited`. -/
noncomputable def limitedProblem : Feasibility ℝ := ofDefaults limitedLeaf.header 2

/-- Stores in which the problem keeps the residual at `[a]`. -/
structure LimitedAt (a : ℝ) (store : Store ℝ) : Prop where
  unrevised : store.revisions = {}
  buffer : (limitedProblem.cache limitedLeaf.oracle store).constraints.length = 2
  point : (limitedProblem.cache limitedLeaf.oracle store).point = some [a]

/-- Whatever the buffer holds, the backend is asked. -/
theorem run_constraints_limited {store : Store ℝ} (unrevised : store.revisions = {}) (a : ℝ)
    {out : List ℝ} (length : out.length = 2) :
    (limitedLeaf.oracle.constraints (.vector [a]) (some (.vector out))).run store =
      (Eval.ofExcept (limitedBackend.constraints [a])).run
        (store.setTally 0 ((store.tally 0).record .constraints)) := by
  obtain ⟨u, v, rfl⟩ := List.length_eq_two.1 length
  have current : store.currentBackend 0 limitedBackend = limitedBackend := by
    rw [Store.currentBackend, unrevised]
    rfl
  show EStateM.run (Eval.ofExcept ((store.currentBackend 0 limitedBackend).constraints [a])) _ = _
  rw [current]
  rfl

/-- At a first point with constraint values, the residual there is kept. -/
theorem limitedAt_of_unused {a : ℝ} (within : a ≤ 1) {store : Store ℝ}
    (unrevised : store.revisions = {}) (unused : store.residuals = {}) :
    LimitedAt a
      ((limitedProblem.ask limitedLeaf.oracle (.infeasibility (.vector [a]))).after store) := by
  have cacheEq : limitedProblem.cache limitedLeaf.oracle store = ⟨[0, 0], [0, 0], none⟩ := by
    rw [cache, unused]
    rfl
  have miss : (limitedProblem.cache limitedLeaf.oracle store).point.any ([a] == ·) = false := by
    rw [cacheEq]
    rfl
  have values : limitedBackend.constraints [a] = .ok [a, a] :=
    if_pos (by simpa [Vec.total] using within)
  have buffer : (limitedProblem.cache limitedLeaf.oracle store).constraints.length = 2 := by
    rw [cacheEq]
    rfl
  have called := run_constraints_limited unrevised a buffer
  rw [values] at called
  obtain ⟨last, run, revisions, kept⟩ := exists_run_residual_of_miss miss called
    (by rw [cacheEq]; exact fun _ => rfl)
  have returned : (limitedProblem.infeasibility limitedLeaf.oracle (.vector [a])).run store =
    .ok _ last := run_bind_of_ok run
  have after : (limitedProblem.ask limitedLeaf.oracle (.infeasibility (.vector [a]))).after store =
    last := Eval.after_of_run_ok (run_bind_of_ok returned)
  rw [after]
  exact ⟨revisions.trans unrevised, by rw [kept]; rfl, by rw [kept]⟩

namespace LimitedAt

variable {a b : ℝ} {store : Store ℝ} (limitedAt : LimitedAt a store)
include limitedAt

/-- Asked at the same point again, the problem does not ask its base. -/
theorem repeated :
    (limitedProblem.ask limitedLeaf.oracle (.infeasibility (.vector [a]))).after store = store := by
  have hit : (limitedProblem.cache limitedLeaf.oracle store).point.any ([a] == ·) = true := by
    rw [limitedAt.point]
    exact beq_self_eq_true [a]
  have returned : (limitedProblem.infeasibility limitedLeaf.oracle (.vector [a])).run store =
    .ok _ store := run_bind_of_ok (run_residual_of_hit hit)
  exact Eval.after_of_run_ok (run_bind_of_ok returned)

/-- Beyond `x = 1` the problem fails as its base does. -/
theorem run_infeasibility (within : a ≤ 1) (beyond : 1 < b) :
    (limitedProblem.ask limitedLeaf.oracle (.infeasibility (.vector [b]))).run store =
      .error (.evaluationFailed .constraints)
        (store.setTally 0 ((store.tally 0).record .constraints)) := by
  have miss : (limitedProblem.cache limitedLeaf.oracle store).point.any ([b] == ·) = false := by
    rw [limitedAt.point]
    simpa using (within.trans_lt beyond).ne'
  have called := run_constraints_limited limitedAt.unrevised b limitedAt.buffer
  have values : limitedBackend.constraints [b] = .error (.evaluationFailed .constraints) :=
    if_neg (by simpa [Vec.total] using beyond)
  rw [values] at called
  have passed : (Eval.checkVectors limitedProblem.header.nvar [(Tensor.vector [b]).shape]).run store =
    .ok () store := rfl
  have failed : (limitedProblem.infeasibility limitedLeaf.oracle (.vector [b])).run store =
    .error (.evaluationFailed .constraints) _ :=
    (run_bind_of_ok passed).trans (run_bind_of_error (run_residual_of_failure miss called))
  exact run_bind_of_error failed

/-- A failure at another point does not touch what is kept. -/
theorem failed (within : a ≤ 1) (beyond : 1 < b) :
    LimitedAt a
      ((limitedProblem.ask limitedLeaf.oracle (.infeasibility (.vector [b]))).after store) := by
  rw [Eval.after_of_run_error (limitedAt.run_infeasibility within beyond)]
  exact ⟨limitedAt.unrevised, limitedAt.buffer, limitedAt.point⟩

end LimitedAt

/-- The problem is asked twice at `x = -1`, then at `x = 2` where its base fails, for a point without
entries, which is refused, and once more at `x = -1`. -/
noncomputable def limitedQuestions : List (Action ℝ) :=
  [.ask limitedProblem (.backend limitedLeaf) (.infeasibility (.vector [-1])),
    .ask limitedProblem (.backend limitedLeaf) (.infeasibility (.vector [-1])),
    .ask limitedProblem (.backend limitedLeaf) (.infeasibility (.vector [1 + 1])),
    .ask limitedProblem (.backend limitedLeaf) (.violation (.vector [])),
    .ask limitedProblem (.backend limitedLeaf) (.infeasibility (.vector [-1]))]

/-- After the detour to a point where the base fails, the residual at `x = -1` is still the one that is
kept, and the problem answers as one that is built anew, also where its base fails. -/
theorem cache_transparent_limitedProblem :
    let later := ((Session.limited.perform
      (.build (.feasibilityProblem (.backend limitedLeaf) {} none true))).run limitedQuestions).store
    (limitedProblem.cache limitedLeaf.oracle later).point = some [-1] ∧
      (∃ values projected,
        (limitedLeaf.oracle.constraints (.vector [-1]) none).outcome later = .ok values ∧
        (limitedLeaf.oracle.project (.vector values) none).outcome later = .ok projected ∧
        (limitedProblem.cache limitedLeaf.oracle later).residual = Vec.sub values projected) ∧
      (limitedProblem.ask limitedLeaf.oracle (.infeasibility (.vector [1 + 1]))).outcome later =
        .error (.evaluationFailed .constraints) ∧
      ∃ rebuilt restarted,
        (build limitedLeaf.header {} none true).run later = .ok rebuilt restarted ∧
          ∀ question, (limitedProblem.ask limitedLeaf.oracle question).outcome later =
            (rebuilt.ask limitedLeaf.oracle question).outcome restarted := by
  intro later
  have built : (build limitedLeaf.header {} none true).run Session.limited.store =
      .ok limitedProblem _ := run_build_default le_rfl rfl Session.limited.store
  have builtModel : (Construction.feasibilityProblem (.backend limitedLeaf) {} none true).build.run
      Session.limited.store = .ok (.feasibility limitedProblem (.backend limitedLeaf)) _ :=
    run_bind_of_ok built
  have first := Session.perform_build_of_ok builtModel
  have member : .feasibility limitedProblem (.backend limitedLeaf) ∈ (Session.limited.perform
      (.build (.feasibilityProblem (.backend limitedLeaf) {} none true))).models := by
    rw [first]
    exact .head _
  have admitted : (Session.limited.perform
      (.build (.feasibilityProblem (.backend limitedLeaf) {} none true))).AdmitsAll
        limitedQuestions :=
    ⟨member, member, member, member, member, trivial⟩
  have within : (-1 : ℝ) ≤ 1 := by norm_num
  have beyond : (1 : ℝ) < 1 + 1 := by norm_num
  have keptAt : LimitedAt (-1) later := by
    have asked : LimitedAt (-1) ((limitedProblem.ask limitedLeaf.oracle (.infeasibility
        (.vector [-1]))).after (Session.limited.perform
          (.build (.feasibilityProblem (.backend limitedLeaf) {} none true))).store) :=
      limitedAt_of_unused within (by rw [first]; rfl) (by rw [first]; rfl)
    have detour := asked.failed within beyond
    -- The repeated questions leave the store as it is, and so does the refused one between them.
    rw [← asked.repeated] at detour
    rw [← detour.repeated] at detour
    exact detour
  obtain ⟨keeps, rebuilt, restarted, run, _, questions⟩ := cache_transparent Session.reachable_limited
    Session.limitedLeaf_mem_limited (Model.pointFunction _) built admitted
  exact ⟨keptAt.point, keeps _ keptAt.point,
    Eval.outcome_of_run_error (keptAt.run_infeasibility within beyond), rebuilt, restarted, run,
    questions⟩

end CompositeModels.Feasibility
