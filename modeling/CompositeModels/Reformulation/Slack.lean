/-
Module: CompositeModels.Reformulation.Slack
Purpose: The slack reformulation. For a base with variables `x`, it adds one variable `s` for each
  constraint and represents, at the point `[x; s]`,

    optimize    f(x) + g(x) + ind_S(s)
    subject to  c(x) - s = 0

  The constraint set is the zero vector alone. The set of the base comes back through the proximal
  operator, which projects the slack block onto it.
Main exports: Slack.build, Slack.hooks, Slack.oracle
-/
import CompositeModels.Reformulation.Wrapper

namespace CompositeModels.Slack

variable {α : Type} [Scalar α]

/-- Build the slack reformulation of a base. Slack variables start at zero. -/
def build (base : Header α) (name : Option String) (ownsBase : Bool) : Eval α (Wrapper α) := do
  let header ← Eval.ofExcept <| base.replace {
    nvar := some (base.nvar + base.ncon : Nat)
    x0 := some (some (.vector (base.x0 ++ Vec.zeros base.ncon)))
    name := some (Wrapper.derivedName base "-slack" name) }
  let serial ← Eval.freshSerial
  Eval.record (.slacksAdded base.name header.ncon base.nvar header.nvar)
  return { serial := serial, header := header, ownsBase := ownsBase }

/-- The block of the base's variables. -/
def baseBlock (base : Oracle α) (x : List α) : List α := x.take base.header.nvar

/-- The block of the slack variables. -/
def slackBlock (base : Oracle α) (x : List α) : List α := x.drop base.header.nvar

/-- Evaluate into the block of the base's variables, and set the slack block to zero. -/
def gradient (base : Oracle α) (x out : List α) : Eval α (List α) := do
  let slope ← base.gradient (.vector (baseBlock base x)) (some (.vector (baseBlock base out)))
  return slope ++ Vec.zeroed (slackBlock base out)

/-- The objective and its gradient, from one fused evaluation of the base. -/
def objectiveGradient (base : Oracle α) (x out : List α) : Eval α (α × List α) := do
  let (value, slope) ←
    base.objectiveGradient (.vector (baseBlock base x)) (some (.vector (baseBlock base out)))
  return (value, slope ++ Vec.zeroed (slackBlock base out))

/-- The constraint values of the base minus the slacks. -/
def constraints (base : Oracle α) (x out : List α) : Eval α (List α) := do
  let content ← base.constraints (.vector (baseBlock base x)) (some (.vector out))
  return Vec.sub content (slackBlock base x)

/-- The Jacobian is that of the base beside minus the identity. -/
def jacobianProduct (base : Oracle α) (x v out : List α) : Eval α (List α) := do
  let content ← base.jacobianProduct (.vector (baseBlock base x)) (.vector (baseBlock base v))
    (some (.vector out))
  return Vec.sub content (slackBlock base v)

/-- The transposed Jacobian is that of the base above minus the identity. -/
def adjointProduct (base : Oracle α) (x v out : List α) : Eval α (List α) := do
  let content ← base.adjointProduct (.vector (baseBlock base x)) (.vector v)
    (some (.vector (baseBlock base out)))
  return content ++ Vec.neg v

/-- The proximal point of the base in one block, the projection onto its set in the other. -/
def proximal (base : Oracle α) (x : List α) (step : α) (out : List α) : Eval α (List α) := do
  let point ← base.proximal (.vector (baseBlock base x)) step (some (.vector (baseBlock base out)))
  let projected ← base.project (.vector (slackBlock base x)) (some (.vector (slackBlock base out)))
  return point ++ projected

/-- As `proximal`, with the value of the base's term. The indicator of the set vanishes on the
projected block. -/
def proximalWithValue (base : Oracle α) (x : List α) (step : α) (out : List α) :
    Eval α (α × List α) := do
  let (value, point) ←
    base.proximalWithValue (.vector (baseBlock base x)) step (some (.vector (baseBlock base out)))
  let projected ← base.project (.vector (slackBlock base x)) (some (.vector (slackBlock base out)))
  return (value, point ++ projected)

/-- The hooks of the slack reformulation. -/
def hooks (header : Header α) (base : Oracle α) : Hooks α where
  objective x := base.objective (.vector (baseBlock base x))
  gradient := gradient base
  objectiveGradient := objectiveGradient base
  constraints := constraints base
  objectiveConstraints := Hooks.separateObjectiveConstraints header
    (fun x => base.objective (.vector (baseBlock base x))) (constraints base)
  jacobianProduct := jacobianProduct base
  adjointProduct := adjointProduct base
  project _ out := pure (Vec.zeroed out)
  distance v := pure (Vec.norm v)
  proximal := proximal base
  proximalWithValue := proximalWithValue base

/-- The oracle of the slack reformulation. -/
def oracle (wrapper : Wrapper α) (base : Oracle α) : Oracle α where
  header := wrapper.header
  kind := .slack
  hooks := hooks wrapper.header base

end CompositeModels.Slack
