/-
Module: CompositeModels.Reformulation.Wrapper
Purpose: What all reformulations of a base model have in common.
Main exports: Wrapper, Wrapper.derivedName
-/
import CompositeModels.Oracle

namespace CompositeModels

/-- The data of a reformulation apart from its base. -/
structure Wrapper (α : Type) where
  serial : Nat
  /-- The header of the derived problem. -/
  header : Header α
  /-- Whether closing the reformulation closes its base. -/
  ownsBase : Bool

namespace Wrapper

variable {α : Type}

/-- A reformulation that is given no name is named after its base. -/
def derivedName (base : Header α) (suffix : String) (name : Option String) : String :=
  name.getD (base.name ++ suffix)

end Wrapper

end CompositeModels
