/-
Module: CompositeModels.Event.Message
Purpose: The wording of recorded events.
Main exports: Severity.label, Event.message
-/
import CompositeModels.Event
import CompositeModels.Termination
import CompositeModels.Text.Number

namespace CompositeModels

/-- The name of a severity. -/
def Severity.label : Severity → String
  | .debug => "DEBUG"
  | .info => "INFO"
  | .error => "ERROR"

namespace Event

/-- The text of an event. -/
def message : Event Float → String
  | .backendWrapped backend nvar ncon =>
      s!"Wrapping backend {backend} with {nvar} variables and {ncon} constraints"
  | .expressionsBuilt name nvar ncon =>
      s!"Building autodiff model {name} with {nvar} variables and {ncon} constraints"
  | .slacksAdded base ncon nvarBefore nvarAfter =>
      s!"Adding {ncon} slack variables to {base}: {nvarBefore} -> {nvarAfter} variables"
  | .proximalPointBuilt base step =>
      s!"Building proximal subproblem of {base} with step {Number.plain step}"
  | .augmentedLagrangianBuilt base ncon smallestPenalty largestPenalty =>
      s!"Building augmented Lagrangian of {base} with {ncon} constraints, mu in [" ++
        Number.scientific 2 smallestPenalty ++ ", " ++ Number.scientific 2 largestPenalty ++ "]"
  | .augmentedLagrangianUpdated name largestPenalty largestMultiplier =>
      s!"Updated augmented Lagrangian {name}: max mu=" ++ Number.scientific 2 largestPenalty ++
        ", max |y|=" ++ Number.scientific 2 largestMultiplier
  | .feasibilityBuilt base loss ncon withProximalTerm =>
      s!"Building feasibility problem of {base} with {loss} loss, {ncon} constraints, " ++
        "proximal term " ++ if withProximalTerm then "on" else "off"
  | .baseReleased name base => s!"Closing {name}, releasing base {base}"
  | .backendReleased backend => s!"Releasing backend {backend}"
  | .statusRefused status =>
      s!"Invalid status {status}. Use one of the following: " ++
        ", ".intercalate (Status.all.map (·.key))

end Event

end CompositeModels
