/-
Module: CompositeModels.Reformulation.Unconstrained
Purpose: Constraint hooks of reformulations without constraints. The operations of an oracle never
  reach them, since they stop at an empty constraint vector.
Main exports: Unconstrained.constraints, Unconstrained.jacobianProduct, Unconstrained.adjointProduct
-/
import CompositeModels.Reformulation.Wrapper

namespace CompositeModels.Unconstrained

variable {α : Type}

/-- Nothing is written. -/
def constraints (_x out : List α) : Eval α (List α) := pure out

/-- Nothing is written. -/
def jacobianProduct (_x _v out : List α) : Eval α (List α) := pure out

/-- The buffer is filled with zeros. -/
def adjointProduct [Scalar α] (_x _v out : List α) : Eval α (List α) := pure (Vec.zeroed out)

end CompositeModels.Unconstrained
