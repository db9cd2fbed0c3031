/-
Module: CompositeModels.Leaf.Backend
Purpose: The model of a backend, as the problem

    optimize    f(x) + g(x)
    subject to  c(x) in S

  with `g` the indicator of the box of the variable bounds and `S` the box of the constraint bounds.
  Smooth evaluations are the backend's, projections and proximal points clamp onto a box.
Main exports: BackendLeaf, BackendLeaf.build, BackendLeaf.oracle
-/
import CompositeModels.Box
import CompositeModels.Oracle

namespace CompositeModels

/-- A model of a backend. The bounds are copied when the model is built, the evaluations are always
those of the backend as it is now. -/
structure BackendLeaf (α : Type) where
  serial : Nat
  header : Header α
  /-- The serial number of the backend. -/
  backendSerial : Nat
  /-- The backend as it was when the model was built. -/
  backend : Backend α
  variableBox : Box α
  constraintBox : Box α
  ownsBackend : Bool

/-- The backend with the given serial number as it is now, if it was `backend` to begin with. -/
def Store.currentBackend {α : Type} (store : Store α) (serial : Nat) (backend : Backend α) :
    Backend α :=
  (store.revisions.get? serial).getD backend

/-- Replace the data of a backend. -/
def Store.reviseBackend {α : Type} (store : Store α) (serial : Nat) (backend : Backend α) : Store α :=
  { store with revisions := store.revisions.set serial backend }

namespace BackendLeaf

variable {α : Type} [Scalar α]

/-- Build the model of a backend. The lengths of all its vectors are checked, the order of its bounds
is not. -/
def build (backendSerial : Nat) (backend : Backend α) (name : Option String) (ownsBackend : Bool) :
    Eval α (BackendLeaf α) := do
  let backend := (← get).currentBackend backendSerial backend
  let header ← Eval.ofExcept <| Header.make backend.nvar backend.ncon (some backend.x0)
    (some backend.y0) backend.minimize (name.getD (backend.name ++ "-nlpopti"))
  Eval.checkVectors header.nvar [backend.lower.shape, backend.upper.shape]
  Eval.checkVectors header.ncon [backend.lowerCon.shape, backend.upperCon.shape]
  let serial ← Eval.freshSerial
  Eval.record (.backendWrapped backend.name header.nvar header.ncon)
  return {
    serial := serial
    header := header
    backendSerial := backendSerial
    backend := backend
    variableBox := Box.ofBounds backend.lower.entries backend.upper.entries
    constraintBox := Box.ofBounds backend.lowerCon.entries backend.upperCon.entries
    ownsBackend := ownsBackend }

variable (leaf : BackendLeaf α)

/-- Call an evaluation of the backend. The call is counted whether or not it fails. -/
def call {β : Type} (evaluation : Evaluation) (evaluate : Backend α → Except (Error α) β) :
    Eval α β := do
  let store ← get
  set (store.setTally leaf.backendSerial ((store.tally leaf.backendSerial).record evaluation))
  Eval.ofExcept (evaluate (store.currentBackend leaf.backendSerial leaf.backend))

/-- The hooks of the model. -/
def hooks : Hooks α where
  objective x := leaf.call .objective (·.objective x)
  gradient x _ := leaf.call .gradient (·.gradient x)
  objectiveGradient := Hooks.separateObjectiveGradient
    (fun x => leaf.call .objective (·.objective x))
    (fun x _ => leaf.call .gradient (·.gradient x))
  constraints x _ := leaf.call .constraints (·.constraints x)
  objectiveConstraints := Hooks.separateObjectiveConstraints leaf.header
    (fun x => leaf.call .objective (·.objective x))
    (fun x _ => leaf.call .constraints (·.constraints x))
  jacobianProduct x v _ := leaf.call .jacobianProduct (·.jacobianProduct x v)
  adjointProduct x v _ := leaf.call .adjointProduct (·.adjointProduct x v)
  project v _ := pure (leaf.constraintBox.clamp v)
  distance := Hooks.distanceToProjection fun v _ => pure (leaf.constraintBox.clamp v)
  proximal x _ _ := pure (leaf.variableBox.clamp x)
  proximalWithValue x _ _ := pure (0, leaf.variableBox.clamp x)

/-- The oracle of the model. -/
def oracle : Oracle α where
  header := leaf.header
  kind := .backend
  hooks := leaf.hooks

end BackendLeaf

end CompositeModels
