/-
Module: CompositeModels.Proofs.Meaning
Purpose: What a problem answers as functions of the arguments alone, without a store, buffers or a
  history. The answers fall into three parts that depend on each other in this order: those about
  `c` and `S`, those about the proximable term `g`, and those about the smooth term `f`. The
  operations of a part take arrays of any shape and check them as the operations of an oracle do.
Main exports: ConstraintMeaning, TermMeaning, SmoothMeaning, ConstraintMeaning.constraintsAt,
  ConstraintMeaning.projectAt, TermMeaning.proximalAt, SmoothMeaning.objectiveAt
-/
import CompositeModels.Oracle
import CompositeModels.Proofs.Validation

namespace CompositeModels

/-- The answers about `c` and `S`, for vectors of the declared lengths. -/
structure ConstraintMeaning (α : Type) where
  nvar : Nat
  ncon : Nat
  constraints (x : List α) : Except (Error α) (List α)
  jacobianProduct (x v : List α) : Except (Error α) (List α)
  adjointProduct (x v : List α) : Except (Error α) (List α)
  project (v : List α) : Except (Error α) (List α)
  distance (v : List α) : Except (Error α) α

/-- The answers about `g`, for vectors of the declared length. -/
structure TermMeaning (α : Type) where
  nvar : Nat
  proximal (x : List α) (step : α) : Except (Error α) (List α)
  proximalWithValue (x : List α) (step : α) : Except (Error α) (α × List α)

/-- The answers about `f`, for vectors of the declared length. -/
structure SmoothMeaning (α : Type) where
  nvar : Nat
  objective (x : List α) : Except (Error α) α
  gradient (x : List α) : Except (Error α) (List α)
  objectiveGradient (x : List α) : Except (Error α) (α × List α)

namespace ConstraintMeaning

variable {α : Type} [Scalar α]

/-- The distance to the projection. -/
def distanceToProjection (project : List α → Except (Error α) (List α)) (v : List α) :
    Except (Error α) α := do
  let nearest ← project v
  return Vec.norm (Vec.sub nearest v)

variable (meaning : ConstraintMeaning α)

/-- Ask for `c(x)`. -/
def constraintsAt (x : Tensor α) (out : Option (Tensor α)) : Except (Error α) (List α) := do
  checkVectors meaning.nvar [x.shape]
  checkVectors meaning.ncon [(Oracle.buffer meaning.ncon out).shape]
  if 0 < meaning.ncon then meaning.constraints x.entries else return []

/-- Ask for the Jacobian of `c` at `x` times `v`. -/
def jacobianProductAt (x v : Tensor α) (out : Option (Tensor α)) : Except (Error α) (List α) := do
  checkVectors meaning.nvar [x.shape, v.shape]
  checkVectors meaning.ncon [(Oracle.buffer meaning.ncon out).shape]
  if 0 < meaning.ncon then meaning.jacobianProduct x.entries v.entries else return []

/-- Ask for the transposed Jacobian of `c` at `x` times `v`. -/
def adjointProductAt (x v : Tensor α) (out : Option (Tensor α)) : Except (Error α) (List α) := do
  checkVectors meaning.nvar [x.shape, (Oracle.buffer meaning.nvar out).shape]
  checkVectors meaning.ncon [v.shape]
  if 0 < meaning.ncon then meaning.adjointProduct x.entries v.entries
  else return Vec.zeros meaning.nvar

/-- Ask for the projection of `v` onto `S`. -/
def projectAt (v : Tensor α) (out : Option (Tensor α)) : Except (Error α) (List α) := do
  checkVectors meaning.ncon [v.shape, (Oracle.buffer meaning.ncon out).shape]
  if 0 < meaning.ncon then meaning.project v.entries else return []

/-- Ask for the distance from `v` to `S`. -/
def distanceAt (v : Tensor α) : Except (Error α) α := do
  checkVectors meaning.ncon [v.shape]
  if 0 < meaning.ncon then meaning.distance v.entries else return 0

end ConstraintMeaning

namespace TermMeaning

variable {α : Type} [Scalar α]

/-- A step that is not above zero is refused. -/
def requirePositiveStep (step : α) : Except (Error α) Unit :=
  if 0 < step then .ok () else .error (.nonpositiveStep step)

variable (meaning : TermMeaning α)

/-- Ask for the proximal point of `step * g` at `x`. -/
def proximalAt (x : Tensor α) (step : α) (out : Option (Tensor α)) : Except (Error α) (List α) := do
  checkVectors meaning.nvar [x.shape, (Oracle.buffer meaning.nvar out).shape]
  requirePositiveStep step
  meaning.proximal x.entries step

/-- Ask for the proximal point of `step * g` at `x`, after the value of `g` there. -/
def proximalWithValueAt (x : Tensor α) (step : α) (out : Option (Tensor α)) :
    Except (Error α) (α × List α) := do
  checkVectors meaning.nvar [x.shape, (Oracle.buffer meaning.nvar out).shape]
  requirePositiveStep step
  meaning.proximalWithValue x.entries step

end TermMeaning

namespace SmoothMeaning

variable {α : Type} [Scalar α]

/-- The objective, then the gradient. -/
def separateObjectiveGradient (objective : List α → Except (Error α) α)
    (gradient : List α → Except (Error α) (List α)) (x : List α) : Except (Error α) (α × List α) := do
  let value ← objective x
  let slope ← gradient x
  return (value, slope)

variable (meaning : SmoothMeaning α)

/-- Ask for `f(x)`. -/
def objectiveAt (x : Tensor α) : Except (Error α) α := do
  checkVectors meaning.nvar [x.shape]
  meaning.objective x.entries

/-- Ask for the gradient of `f` at `x`. -/
def gradientAt (x : Tensor α) (out : Option (Tensor α)) : Except (Error α) (List α) := do
  checkVectors meaning.nvar [x.shape, (Oracle.buffer meaning.nvar out).shape]
  meaning.gradient x.entries

/-- Ask for `f(x)` and the gradient of `f` at `x`. -/
def objectiveGradientAt (x : Tensor α) (out : Option (Tensor α)) :
    Except (Error α) (α × List α) := do
  checkVectors meaning.nvar [x.shape, (Oracle.buffer meaning.nvar out).shape]
  meaning.objectiveGradient x.entries

/-- Ask for `f(x)` and `c(x)`. The objective comes first, whatever the model is. -/
def objectiveConstraintsAt (restriction : ConstraintMeaning α) (x : Tensor α)
    (out : Option (Tensor α)) : Except (Error α) (α × List α) := do
  checkVectors meaning.nvar [x.shape]
  checkVectors restriction.ncon [(Oracle.buffer restriction.ncon out).shape]
  let value ← meaning.objective x.entries
  if 0 < restriction.ncon then
    let content ← restriction.constraints x.entries
    return (value, content)
  else
    return (value, [])

end SmoothMeaning

/-! ### Questions with vectors of the declared lengths

A buffer matters for its shape only, and one of the right shape might as well be left out. With vectors
of the declared lengths the checks pass, and what remains is the answer of the model itself. -/

section Vectors

variable {α : Type} [Scalar α]

theorem Oracle.shape_buffer_none (n : Nat) : (buffer n (none : Option (Tensor α))).shape = [n] := by
  simp [buffer]

theorem Oracle.shape_buffer_vector {n : Nat} {out : List α} (length : out.length = n) :
    (buffer n (some (.vector out))).shape = [n] := by
  simp [buffer, length]

namespace ConstraintMeaning

variable {meaning : ConstraintMeaning α}

theorem constraintsAt_vector {x : List α} (hx : x.length = meaning.nvar) :
    meaning.constraintsAt (.vector x) none =
      if 0 < meaning.ncon then meaning.constraints x else .ok [] := by
  simp only [constraintsAt, Tensor.shape_vector, Tensor.entries_vector, hx, Oracle.shape_buffer_none,
    checkVectors_self]
  rfl

theorem jacobianProductAt_vector {x v : List α} (hx : x.length = meaning.nvar)
    (hv : v.length = meaning.nvar) :
    meaning.jacobianProductAt (.vector x) (.vector v) none =
      if 0 < meaning.ncon then meaning.jacobianProduct x v else .ok [] := by
  simp only [jacobianProductAt, Tensor.shape_vector, Tensor.entries_vector, hx, hv,
    Oracle.shape_buffer_none, checkVectors_self, checkVectors_self_self]
  rfl

theorem adjointProductAt_vector {x v : List α} (hx : x.length = meaning.nvar)
    (hv : v.length = meaning.ncon) :
    meaning.adjointProductAt (.vector x) (.vector v) none =
      if 0 < meaning.ncon then meaning.adjointProduct x v else .ok (Vec.zeros meaning.nvar) := by
  simp only [adjointProductAt, Tensor.shape_vector, Tensor.entries_vector, hx, hv,
    Oracle.shape_buffer_none, checkVectors_self, checkVectors_self_self]
  rfl

theorem projectAt_vector {v : List α} (hv : v.length = meaning.ncon) :
    meaning.projectAt (.vector v) none =
      if 0 < meaning.ncon then meaning.project v else .ok [] := by
  simp only [projectAt, Tensor.shape_vector, Tensor.entries_vector, hv, Oracle.shape_buffer_none,
    checkVectors_self_self]
  rfl

theorem distanceAt_vector {v : List α} (hv : v.length = meaning.ncon) :
    meaning.distanceAt (.vector v) = if 0 < meaning.ncon then meaning.distance v else .ok 0 := by
  simp only [distanceAt, Tensor.shape_vector, Tensor.entries_vector, hv, checkVectors_self]
  rfl

theorem constraintsAt_congr {first second : List α} (same : first.length = second.length)
    {x : Tensor α} :
    meaning.constraintsAt x (some (.vector second)) =
      meaning.constraintsAt x (some (.vector first)) := by
  simp only [constraintsAt, Oracle.buffer, Option.getD_some, Tensor.shape_vector, same]

theorem jacobianProductAt_congr {first second : List α} (same : first.length = second.length)
    {x v : Tensor α} :
    meaning.jacobianProductAt x v (some (.vector second)) =
      meaning.jacobianProductAt x v (some (.vector first)) := by
  simp only [jacobianProductAt, Oracle.buffer, Option.getD_some, Tensor.shape_vector, same]

theorem adjointProductAt_congr {first second : List α} (same : first.length = second.length)
    {x v : Tensor α} :
    meaning.adjointProductAt x v (some (.vector second)) =
      meaning.adjointProductAt x v (some (.vector first)) := by
  simp only [adjointProductAt, Oracle.buffer, Option.getD_some, Tensor.shape_vector, same]

theorem projectAt_congr {first second : List α} (same : first.length = second.length)
    {v : Tensor α} :
    meaning.projectAt v (some (.vector second)) = meaning.projectAt v (some (.vector first)) := by
  simp only [projectAt, Oracle.buffer, Option.getD_some, Tensor.shape_vector, same]

theorem constraintsAt_some {out : List α} (length : out.length = meaning.ncon) (x : Tensor α) :
    meaning.constraintsAt x (some (.vector out)) = meaning.constraintsAt x none := by
  simp only [constraintsAt, Oracle.shape_buffer_none, Oracle.shape_buffer_vector length]

theorem jacobianProductAt_some {out : List α} (length : out.length = meaning.ncon)
    (x v : Tensor α) :
    meaning.jacobianProductAt x v (some (.vector out)) = meaning.jacobianProductAt x v none := by
  simp only [jacobianProductAt, Oracle.shape_buffer_none, Oracle.shape_buffer_vector length]

theorem adjointProductAt_some {out : List α} (length : out.length = meaning.nvar) (x v : Tensor α) :
    meaning.adjointProductAt x v (some (.vector out)) = meaning.adjointProductAt x v none := by
  simp only [adjointProductAt, Oracle.shape_buffer_none, Oracle.shape_buffer_vector length]

theorem projectAt_some {out : List α} (length : out.length = meaning.ncon) (v : Tensor α) :
    meaning.projectAt v (some (.vector out)) = meaning.projectAt v none := by
  simp only [projectAt, Oracle.shape_buffer_none, Oracle.shape_buffer_vector length]

end ConstraintMeaning

namespace TermMeaning

variable {meaning : TermMeaning α}

theorem proximalAt_vector {x : List α} {step : α} (positive : 0 < step)
    (hx : x.length = meaning.nvar) :
    meaning.proximalAt (.vector x) step none = meaning.proximal x step := by
  simp only [proximalAt, requirePositiveStep, Tensor.shape_vector, Tensor.entries_vector, hx,
    Oracle.shape_buffer_none, checkVectors_self_self, if_pos positive]
  rfl

theorem proximalWithValueAt_vector {x : List α} {step : α} (positive : 0 < step)
    (hx : x.length = meaning.nvar) :
    meaning.proximalWithValueAt (.vector x) step none = meaning.proximalWithValue x step := by
  simp only [proximalWithValueAt, requirePositiveStep, Tensor.shape_vector, Tensor.entries_vector, hx,
    Oracle.shape_buffer_none, checkVectors_self_self, if_pos positive]
  rfl

theorem proximalAt_some {out : List α} (length : out.length = meaning.nvar) (x : Tensor α)
    (step : α) : meaning.proximalAt x step (some (.vector out)) = meaning.proximalAt x step none := by
  simp only [proximalAt, Oracle.shape_buffer_none, Oracle.shape_buffer_vector length]

theorem proximalWithValueAt_some {out : List α} (length : out.length = meaning.nvar) (x : Tensor α)
    (step : α) :
    meaning.proximalWithValueAt x step (some (.vector out)) =
      meaning.proximalWithValueAt x step none := by
  simp only [proximalWithValueAt, Oracle.shape_buffer_none, Oracle.shape_buffer_vector length]

end TermMeaning

namespace SmoothMeaning

variable {meaning : SmoothMeaning α} {restriction : ConstraintMeaning α}

omit [Scalar α] in
theorem objectiveAt_vector {x : List α} (hx : x.length = meaning.nvar) :
    meaning.objectiveAt (.vector x) = meaning.objective x := by
  simp only [objectiveAt, Tensor.shape_vector, Tensor.entries_vector, hx, checkVectors_self]
  rfl

theorem gradientAt_vector {x : List α} (hx : x.length = meaning.nvar) :
    meaning.gradientAt (.vector x) none = meaning.gradient x := by
  simp only [gradientAt, Tensor.shape_vector, Tensor.entries_vector, hx, Oracle.shape_buffer_none,
    checkVectors_self_self]
  rfl

/-- The objective and the constraints together are one after the other. -/
theorem objectiveConstraintsAt_vector {x : List α} (hx : x.length = meaning.nvar)
    (nvar : restriction.nvar = meaning.nvar) :
    meaning.objectiveConstraintsAt restriction (.vector x) none =
      (do
        let value ← meaning.objectiveAt (.vector x)
        let values ← restriction.constraintsAt (.vector x) none
        return (value, values)) := by
  rw [objectiveAt_vector hx, ConstraintMeaning.constraintsAt_vector (hx.trans nvar.symm)]
  simp only [objectiveConstraintsAt, Tensor.shape_vector, Tensor.entries_vector, hx,
    Oracle.shape_buffer_none, checkVectors_self]
  split
  · rfl
  · rfl

theorem gradientAt_some {out : List α} (length : out.length = meaning.nvar) (x : Tensor α) :
    meaning.gradientAt x (some (.vector out)) = meaning.gradientAt x none := by
  simp only [gradientAt, Oracle.shape_buffer_none, Oracle.shape_buffer_vector length]

theorem gradientAt_congr {first second : List α} (same : first.length = second.length)
    {x : Tensor α} :
    meaning.gradientAt x (some (.vector second)) = meaning.gradientAt x (some (.vector first)) := by
  simp only [gradientAt, Oracle.buffer, Option.getD_some, Tensor.shape_vector, same]

theorem objectiveGradientAt_some {out : List α} (length : out.length = meaning.nvar)
    (x : Tensor α) :
    meaning.objectiveGradientAt x (some (.vector out)) = meaning.objectiveGradientAt x none := by
  simp only [objectiveGradientAt, Oracle.shape_buffer_none, Oracle.shape_buffer_vector length]

theorem objectiveConstraintsAt_some {out : List α} (length : out.length = restriction.ncon)
    (x : Tensor α) :
    meaning.objectiveConstraintsAt restriction x (some (.vector out)) =
      meaning.objectiveConstraintsAt restriction x none := by
  simp only [objectiveConstraintsAt, Oracle.shape_buffer_none, Oracle.shape_buffer_vector length]

end SmoothMeaning

end Vectors

end CompositeModels
