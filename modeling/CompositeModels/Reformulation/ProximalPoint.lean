/-
Module: CompositeModels.Reformulation.ProximalPoint
Purpose: The proximal-point subproblem. For a base, an anchor `x0` and a step `a > 0` it represents

    minimize    1/(2a) ||x - x0||^2 + g(x)
    subject to  c(x) in S

  Only the smooth part changes. Everything else is the base's.
Main exports: ProximalPoint, ProximalPoint.build, ProximalPoint.hooks, ProximalPoint.oracle
-/
import CompositeModels.Reformulation.Wrapper

namespace CompositeModels

/-- The data of a proximal-point subproblem. -/
structure ProximalPoint (α : Type) extends Wrapper α where
  step : α
  anchor : List α

namespace ProximalPoint

variable {α : Type} [Scalar α]

/-- Build the subproblem. The anchor, which is also the initial guess, and the multipliers default to
the guesses of the base. -/
def build (base : Header α) (step : α) (x0 y0 : Option (Tensor α)) (name : Option String)
    (ownsBase : Bool) : Eval α (ProximalPoint α) := do
  Oracle.requirePositiveStep step
  let x0 := x0.getD (.vector base.x0)
  let y0 := y0.getD (.vector base.y0)
  Eval.checkVectors base.nvar [x0.shape]
  Eval.checkVectors base.ncon [y0.shape]
  let header ← Eval.ofExcept <| base.replace {
    x0 := some (some x0)
    y0 := some (some y0)
    minimize := some true
    name := some (Wrapper.derivedName base "-prox" name) }
  let serial ← Eval.freshSerial
  Eval.record (.proximalPointBuilt base.name step)
  return {
    serial := serial
    header := header
    ownsBase := ownsBase
    step := step
    anchor := x0.entries }

variable (node : ProximalPoint α)

/-- The scaled squared distance from the anchor. -/
def objective (x : List α) : α :=
  let d := Vec.sub x node.anchor
  Scalar.half / node.step * Vec.dot d d

/-- The gradient of the scaled squared distance. -/
def gradient (x : List α) : List α := Vec.divide (Vec.sub x node.anchor) node.step

/-- The hooks of the subproblem. -/
def hooks (base : Oracle α) : Hooks α where
  objective x := pure (node.objective x)
  gradient x _ := pure (node.gradient x)
  objectiveGradient := Hooks.separateObjectiveGradient
    (fun x => pure (node.objective x)) (fun x _ => pure (node.gradient x))
  constraints x out := base.constraints (.vector x) (some (.vector out))
  objectiveConstraints := Hooks.separateObjectiveConstraints node.header
    (fun x => pure (node.objective x)) (fun x out => base.constraints (.vector x) (some (.vector out)))
  jacobianProduct x v out := base.jacobianProduct (.vector x) (.vector v) (some (.vector out))
  adjointProduct x v out := base.adjointProduct (.vector x) (.vector v) (some (.vector out))
  project v out := base.project (.vector v) (some (.vector out))
  distance := Hooks.distanceToProjection fun v out => base.project (.vector v) (some (.vector out))
  proximal x step out := base.proximal (.vector x) step (some (.vector out))
  proximalWithValue x step out := base.proximalWithValue (.vector x) step (some (.vector out))

/-- The oracle of the subproblem. -/
def oracle (base : Oracle α) : Oracle α where
  header := node.header
  kind := .proximalPoint
  hooks := node.hooks base

end ProximalPoint

end CompositeModels
