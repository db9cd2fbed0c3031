/-
Module: CompositeModels.Header
Purpose: The dimensions, initial guesses, sense and name of a problem. Headers are made and changed
  only through validation.
Main exports: Header, Header.make, Header.Changes, Header.replace
-/
import CompositeModels.Error

namespace CompositeModels

/-- The dimensions and descriptive data of a problem with `nvar` variables and `ncon` constraints. -/
structure Header (α : Type) where
  /-- The number of variables. -/
  nvar : Nat
  /-- The number of constraints. -/
  ncon : Nat
  /-- The initial guess of the variables. -/
  x0 : List α
  /-- The initial guess of the multipliers. -/
  y0 : List α
  /-- Whether the objective is minimised. -/
  minimize : Bool
  /-- The name of the problem. -/
  name : String
deriving Repr, Inhabited

namespace Header

variable {α : Type}

/-- A problem without constraints. -/
def isUnconstrained (header : Header α) : Bool := header.ncon == 0

/-- The name of a problem that was given none. -/
def defaultName : String := "Generic"

section Make

variable [Scalar α]

/-- Build a header. A missing guess is the zero vector of the declared length. -/
def make (nvar ncon : Int) (x0 y0 : Option (Tensor α)) (minimize : Bool) (name : String) :
    Except (Error α) (Header α) := do
  if nvar < 1 ∨ ncon < 0 then
    throw (.invalidDimensions nvar ncon)
  let x0 := x0.getD (.vector (Vec.zeros nvar.toNat))
  let y0 := y0.getD (.vector (Vec.zeros ncon.toNat))
  checkVectors nvar [x0.shape]
  checkVectors ncon [y0.shape]
  return {
    nvar := nvar.toNat
    ncon := ncon.toNat
    x0 := x0.entries
    y0 := y0.entries
    minimize := minimize
    name := name }

end Make

/-- Which fields of a header to change. A guess that is changed to nothing becomes the zero vector of
the new length, a field that is not mentioned keeps its value. -/
structure Changes (α : Type) where
  nvar : Option Int := none
  ncon : Option Int := none
  x0 : Option (Option (Tensor α)) := none
  y0 : Option (Option (Tensor α)) := none
  minimize : Option Bool := none
  name : Option String := none
deriving Inhabited

/-- Derive a validated header with some fields changed. -/
def replace [Scalar α] (header : Header α) (changes : Changes α) : Except (Error α) (Header α) :=
  make (changes.nvar.getD header.nvar) (changes.ncon.getD header.ncon)
    (changes.x0.getD (some (.vector header.x0))) (changes.y0.getD (some (.vector header.y0)))
    (changes.minimize.getD header.minimize) (changes.name.getD header.name)

/-- The names of the fields. -/
def fieldNames : List String := ["nvar", "ncon", "x0", "y0", "minimize", "name"]

/-- Check that every name is that of a field. The first that is not is reported. -/
def checkFields (names : List String) : Except (Error α) Unit :=
  match names.find? (!fieldNames.contains ·) with
  | some name => .error (.unknownField name)
  | none => .ok ()

end Header

end CompositeModels
