/-
Module: CompositeModels.Model.Closing
Purpose: Releasing what models hold. A model that was closed before is left alone, so each model
  releases its base or backend at most once.
Main exports: Model.close, Model.closingAfter
-/
import CompositeModels.Model

namespace CompositeModels

namespace BackendLeaf

variable {α : Type}

/-- Close the leaf, and its backend if the leaf owns it and there is something to release. -/
def close (leaf : BackendLeaf α) (store : Store α) : Store α :=
  if store.isClosed leaf.serial then store
  else
    let store := store.markClosed leaf.serial
    if leaf.ownsBackend && leaf.backend.closable then
      let store := store.record (.backendReleased leaf.backend.name)
      store.setTally leaf.backendSerial (store.tally leaf.backendSerial).recordClosing
    else store

end BackendLeaf

namespace Wrapper

variable {α : Type}

/-- Close the reformulation, and its base by `closeBase` if the reformulation owns it. -/
def close (node : Wrapper α) (base : Header α) (closeBase : Store α → Store α) (store : Store α) :
    Store α :=
  if store.isClosed node.serial then store
  else
    let store := store.markClosed node.serial
    if node.ownsBase then closeBase (store.record (.baseReleased node.header.name base.name))
    else store

end Wrapper

namespace Model

variable {α : Type}

/-- Close a model. Expressions hold nothing that could be released. -/
def close : Model α → Store α → Store α
  | .backend leaf => leaf.close
  | .expression _ => id
  | .slack node base => node.close base.header base.close
  | .proximalPoint node base => node.toWrapper.close base.header base.close
  | .augmentedLagrangian node base => node.toWrapper.close base.header base.close
  | .feasibility node base => node.toWrapper.close base.header base.close
  | .tailored node base => node.toWrapper.close base.header base.close

/-- Run a block, then close the model. The outcome of the block is handed on, be it a result or an
error. -/
def closingAfter {β : Type} (model : Model α) (block : Store α → β × Store α) (store : Store α) :
    β × Store α :=
  let (outcome, store) := block store
  (outcome, model.close store)

end Model

end CompositeModels
