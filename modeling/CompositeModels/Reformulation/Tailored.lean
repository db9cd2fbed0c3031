/-
Module: CompositeModels.Reformulation.Tailored
Purpose: A base whose header, constraint set and proximable term are replaced. The smooth evaluations
  are the base's, which checks them against its own dimensions. Without a set or a term of its own the
  model has none, whatever the base has.
Main exports: ConstraintSet, ProximableTerm, Tailored, Tailored.build, Tailored.hooks, Tailored.oracle
-/
import CompositeModels.Reformulation.Wrapper

namespace CompositeModels

/-- Where the projections of a tailored model come from. -/
inductive ConstraintSet (α : Type) where
  /-- The set of the base. -/
  | ofBase
  /-- A set that is given by its projection, which may fail. -/
  | projectedBy (project : List α → Except (Error α) (List α))

/-- A proximable term. -/
structure ProximableTerm (α : Type) where
  /-- The proximal point at a point, for a step. -/
  proximal : List α → α → List α
  /-- The value of the term. -/
  value : List α → α

/-- The data of a tailored model. -/
structure Tailored (α : Type) extends Wrapper α where
  constraintSet : Option (ConstraintSet α)
  term : Option (ProximableTerm α)

namespace ConstraintSet

variable {α : Type} [Scalar α]

/-- The whole space. -/
def free : ConstraintSet α := .projectedBy .ok

/-- The zero vector alone. -/
def zero : ConstraintSet α := .projectedBy fun v => .ok (Vec.zeroed v)

/-- The ball around zero. A point outside is moved along its ray. -/
def ball (radius : α) : ConstraintSet α :=
  .projectedBy fun v =>
    let norm := Vec.norm v
    .ok (if norm ≤ radius then v else Vec.scale (radius / norm) v)

end ConstraintSet

namespace ProximableTerm

variable {α : Type} [Scalar α]

/-- Move an entry towards zero by `t`, and to zero if it is nearer than that. -/
def softThreshold (t a : α) : α :=
  if t < a then a - t else if a < -t then a + t else 0

/-- A multiple of the sum of absolute values. -/
def absoluteSum (factor : α) : ProximableTerm α where
  proximal x step := x.map (softThreshold (step * factor))
  value z := factor * Vec.total (Vec.abs z)

end ProximableTerm

namespace Tailored

variable {α : Type} [Scalar α]

/-- Build a tailored model. -/
def build (base : Header α) (changes : Header.Changes α) (constraintSet : Option (ConstraintSet α))
    (term : Option (ProximableTerm α)) (ownsBase : Bool) : Eval α (Tailored α) := do
  let header ← Eval.ofExcept (base.replace changes)
  let serial ← Eval.freshSerial
  return {
    serial := serial
    header := header
    ownsBase := ownsBase
    constraintSet := constraintSet
    term := term }

variable (node : Tailored α)

/-- Project onto the set, if there is one. -/
def project (base : Oracle α) (v out : List α) : Eval α (List α) :=
  match node.constraintSet with
  | none => Hooks.withoutSet .tailored v out
  | some .ofBase => base.project (.vector v) (some (.vector out))
  | some (.projectedBy project) => Eval.ofExcept (project v)

/-- The proximal point of the term, if there is one. -/
def proximal (x : List α) (step : α) (out : List α) : Eval α (List α) :=
  match node.term with
  | none => Hooks.withoutTerm .tailored x step out
  | some term => pure (term.proximal x step)

/-- The proximal point of the term, after its value there. -/
def proximalWithValue (x : List α) (step : α) (out : List α) : Eval α (α × List α) :=
  match node.term with
  | none => Hooks.withoutTerm .tailored x step out
  | some term =>
      let point := term.proximal x step
      pure (term.value point, point)

/-- The hooks of the model. -/
def hooks (base : Oracle α) : Hooks α where
  objective x := base.objective (.vector x)
  gradient x out := base.gradient (.vector x) (some (.vector out))
  objectiveGradient := Hooks.separateObjectiveGradient (fun x => base.objective (.vector x))
    (fun x out => base.gradient (.vector x) (some (.vector out)))
  constraints x out := base.constraints (.vector x) (some (.vector out))
  objectiveConstraints := Hooks.separateObjectiveConstraints node.header
    (fun x => base.objective (.vector x))
    (fun x out => base.constraints (.vector x) (some (.vector out)))
  jacobianProduct x v out := base.jacobianProduct (.vector x) (.vector v) (some (.vector out))
  adjointProduct x v out := base.adjointProduct (.vector x) (.vector v) (some (.vector out))
  project := node.project base
  distance := Hooks.distanceToProjection (node.project base)
  proximal := node.proximal
  proximalWithValue := node.proximalWithValue

/-- The oracle of the model. -/
def oracle (base : Oracle α) : Oracle α where
  header := node.header
  kind := .tailored
  hooks := node.hooks base

end Tailored

end CompositeModels
