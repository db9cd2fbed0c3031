/-
Module: CompositeModels.Proofs.Inheritance
Purpose: What the augmented Lagrangians of a session take over from their bases. Each of them was built
  from its base, so the base has constraints, and the sense is that of the base.
Main exports: AugmentedLagrangian.IsBuiltOn, Construction.builds_augmented,
  Session.Reachable.isBuiltOn
-/
import CompositeModels.Proofs.Session

namespace CompositeModels

variable {α : Type}

/-- A validated header has the sense that it was made with. -/
theorem Header.minimize_of_make [Scalar α] {nvar ncon : Int} {x0 y0 : Option (Tensor α)}
    {minimize : Bool} {name : String} {header : Header α}
    (made : make nvar ncon x0 y0 minimize name = .ok header) : header.minimize = minimize := by
  unfold make at made
  by_cases invalid : nvar < 1 ∨ ncon < 0
  · rw [if_pos invalid] at made
    cases made
  · rw [if_neg invalid] at made
    obtain ⟨_, _, made⟩ := exists_of_bind_eq_ok made
    obtain ⟨_, _, made⟩ := exists_of_bind_eq_ok made
    cases made
    rfl

/-- The node is the augmented Lagrangian of this base for some arguments. -/
def AugmentedLagrangian.IsBuiltOn [Scalar α] (node : AugmentedLagrangian α) (base : Model α) : Prop :=
  ∃ mu y name ownsBase, node.IsOf base.header mu y name ownsBase

namespace AugmentedLagrangian.IsBuiltOn

variable [Scalar α] {node : AugmentedLagrangian α} {base : Model α} (built : node.IsBuiltOn base)
include built

theorem constrained : 0 < base.header.ncon := by
  obtain ⟨mu, y, name, ownsBase, isOf⟩ := built
  have constrained := isOf.constrained
  simp only [Header.isUnconstrained, beq_eq_false_iff_ne] at constrained
  exact Nat.pos_of_ne_zero constrained

/-- The sense is not among the fields that are changed. -/
theorem minimize : node.header.minimize = base.header.minimize := by
  obtain ⟨mu, y, name, ownsBase, isOf⟩ := built
  exact Header.minimize_of_make isOf.header

theorem relabel (serial : Nat) : IsBuiltOn { node with serial := serial } base := by
  obtain ⟨mu, y, name, ownsBase, isOf⟩ := built
  exact ⟨mu, y, name, ownsBase, isOf.constrained, isOf.admissible, isOf.header, isOf.ownsBase,
    isOf.penalty⟩

end AugmentedLagrangian.IsBuiltOn

variable [Elementary α]

/-- A construction that gives an augmented Lagrangian was asked for one. -/
theorem Construction.builds_augmented {construction : Construction α}
    (admissible : construction.Admissible) :
    Eval.Builds Model.relabel construction.serials
      (fun model => ∀ node base, model = .augmentedLagrangian node base → node.IsBuiltOn base)
      construction.build := by
  have other : ∀ {model : Model α}, model.kind ≠ .augmentedLagrangian →
      ∀ node base, model = .augmentedLagrangian node base → node.IsBuiltOn base := by
    intro model different node base same
    rw [same] at different
    exact absurd rfl different
  cases construction with
  | ofBackend backendSerial backend name ownsBackend =>
      exact (BackendLeaf.builds backendSerial backend name ownsBackend admissible).map
        (fun _ _ => rfl) fun _ _ => other (by simp [Model.kind])
  | ofExpressions objective x0 constraints y0 minimize name =>
      exact (ExpressionLeaf.builds objective x0 constraints y0 minimize name admissible).map
        (fun _ _ => rfl) fun _ _ => other (by simp [Model.kind])
  | withSlacks base name ownsBase =>
      exact (Slack.builds base.header name ownsBase).map
        (fun _ _ => rfl) fun _ _ => other (by simp [Model.kind])
  | proximalSubproblem base step x0 y0 name ownsBase =>
      exact (ProximalPoint.builds base.header step x0 y0 name ownsBase).map
        (fun _ _ => rfl) fun _ _ => other (by simp [Model.kind])
  | augmented base mu y name ownsBase =>
      refine (AugmentedLagrangian.builds base.header mu y name ownsBase).map
        (fun _ _ => rfl) fun node isOf other otherBase same => ?_
      cases same
      exact ⟨mu, y, name, ownsBase, isOf⟩
  | feasibilityProblem base options name ownsBase =>
      exact (Feasibility.builds base.header options name ownsBase).map
        (fun _ _ => rfl) fun _ _ => other (by simp [Model.kind])
  | tailor base changes constraintSet term ownsBase =>
      exact (Tailored.builds base.header changes constraintSet term ownsBase).map
        (fun _ _ => rfl) fun _ _ => other (by simp [Model.kind])

/-- Every augmented Lagrangian of a session was built on its base. -/
theorem Session.Reachable.isBuiltOn {session : Session α} (reachable : session.Reachable) :
    ∀ {node base}, .augmentedLagrangian node base ∈ session.models → node.IsBuiltOn base := by
  induction reachable with
  | start =>
      intro node base member
      cases member
  | @step session action reachable admits ih =>
      intro node base member
      have unrevised := reachable.sound.ready.unrevised
      cases action with
      | build construction =>
          cases construction.builds_augmented admits.1 with
          | refused cause run =>
              simp only [perform, run _ unrevised] at member
              exact ih member
          | granted template events run gives =>
              simp only [perform, run _ unrevised] at member
              rcases List.mem_cons.1 member with new | old
              · cases template with
                | augmentedLagrangian template templateBase =>
                    cases new
                    exact (gives _ _ rfl).relabel session.store.next
                | _ => cases new
              · exact ih old
      | _ => exact ih member

end CompositeModels
