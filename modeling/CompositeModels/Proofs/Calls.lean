/-
Module: CompositeModels.Proofs.Calls
Purpose: The operations of all models as data, so that statements can speak about every call and about
  runs of calls. Every call is answered as the meaning of its model says, and a vector that it gives is
  as long as the buffer for it.
Main exports: Call, Answer, Call.bufferLength, Answer.Fills, Oracle.call, Feasibility.Question,
  Feasibility.ask, Model.answer, Model.answers_call, Feasibility.answers_ask_of_residual,
  Feasibility.answers_ask
-/
import CompositeModels.Proofs.Realization.Smooth
import CompositeModels.Proofs.Realization.Term

namespace CompositeModels

open Eval (Answers AnswersAt)

/-- What can be asked of every model. A buffer may be given for each vector that is asked for. -/
inductive Call (α : Type) where
  | objective (x : Tensor α)
  | gradient (x : Tensor α) (out : Option (Tensor α))
  | objectiveGradient (x : Tensor α) (out : Option (Tensor α))
  | constraints (x : Tensor α) (out : Option (Tensor α))
  | objectiveConstraints (x : Tensor α) (out : Option (Tensor α))
  | jacobianProduct (x v : Tensor α) (out : Option (Tensor α))
  | adjointProduct (x v : Tensor α) (out : Option (Tensor α))
  | project (v : Tensor α) (out : Option (Tensor α))
  | distance (v : Tensor α)
  | proximal (x : Tensor α) (step : α) (out : Option (Tensor α))
  | proximalWithValue (x : Tensor α) (step : α) (out : Option (Tensor α))

/-- What a call gives: a scalar, the content of a buffer, or both. -/
inductive Answer (α : Type) where
  | scalar (value : α)
  | vector (content : List α)
  | both (value : α) (content : List α)

variable {α : Type}

/-- How many entries the buffer of a call has. A call for a scalar has no buffer. -/
def Call.bufferLength (header : Header α) : Call α → Nat
  | .objective _ | .distance _ => 0
  | .gradient .. | .objectiveGradient .. | .adjointProduct .. | .proximal ..
  | .proximalWithValue .. => header.nvar
  | .constraints .. | .objectiveConstraints .. | .jacobianProduct .. | .project .. => header.ncon

/-- A vector in an answer fills a buffer with `n` entries. -/
def Answer.Fills (n : Nat) : Answer α → Prop
  | .scalar _ => True
  | .vector content | .both _ content => content.length = n

/-- Do what a call asks for. -/
def Oracle.call [Scalar α] (oracle : Oracle α) : Call α → Eval α (Answer α)
  | .objective x => do return .scalar (← oracle.objective x)
  | .gradient x out => do return .vector (← oracle.gradient x out)
  | .objectiveGradient x out => do
      let (value, content) ← oracle.objectiveGradient x out
      return .both value content
  | .constraints x out => do return .vector (← oracle.constraints x out)
  | .objectiveConstraints x out => do
      let (value, content) ← oracle.objectiveConstraints x out
      return .both value content
  | .jacobianProduct x v out => do return .vector (← oracle.jacobianProduct x v out)
  | .adjointProduct x v out => do return .vector (← oracle.adjointProduct x v out)
  | .project v out => do return .vector (← oracle.project v out)
  | .distance v => do return .scalar (← oracle.distance v)
  | .proximal x step out => do return .vector (← oracle.proximal x step out)
  | .proximalWithValue x step out => do
      let (value, content) ← oracle.proximalWithValue x step out
      return .both value content

/-- The answer of a model to a call, for given penalty data. -/
def Model.answer [Elementary α] (penalties : Table (Penalty α)) (model : Model α) :
    Call α → Except (Error α) (Answer α)
  | .objective x => do return .scalar (← (model.smoothMeaning penalties).objectiveAt x)
  | .gradient x out => do return .vector (← (model.smoothMeaning penalties).gradientAt x out)
  | .objectiveGradient x out => do
      let (value, content) ← (model.smoothMeaning penalties).objectiveGradientAt x out
      return .both value content
  | .constraints x out => do return .vector (← model.constraintMeaning.constraintsAt x out)
  | .objectiveConstraints x out => do
      let (value, content) ←
        (model.smoothMeaning penalties).objectiveConstraintsAt model.constraintMeaning x out
      return .both value content
  | .jacobianProduct x v out => do
      return .vector (← model.constraintMeaning.jacobianProductAt x v out)
  | .adjointProduct x v out => do
      return .vector (← model.constraintMeaning.adjointProductAt x v out)
  | .project v out => do return .vector (← model.constraintMeaning.projectAt v out)
  | .distance v => do return .scalar (← model.constraintMeaning.distanceAt v)
  | .proximal x step out => do return .vector (← model.termMeaning.proximalAt x step out)
  | .proximalWithValue x step out => do
      let (value, content) ← model.termMeaning.proximalWithValueAt x step out
      return .both value content

/-- Packing what an operation gives as the answer of a call. -/
theorem answers_pack {β : Type} {valid : Store α → Prop} {certain stronger : Prop}
    {program : Eval α β} {good : β → Prop} {fits : Answer α → Prop} {answer : Except (Error α) β}
    {pack : β → Answer α} (answers : Answers valid certain program good answer)
    (condition : stronger → certain) (packs : ∀ value, good value → fits (pack value)) :
    Answers valid stronger (do return pack (← program)) fits (do return pack (← answer)) := by
  intro store holds
  apply ((answers store holds).mono condition fun _ isGood => isGood).bind
  intro value later isGood holds
  exact .pure holds (packs value isGood)

/-- Every call of a repeatable model is answered as its meaning says, whatever happened before. -/
theorem Model.answers_call [Elementary α] {models : List (Model α)} {penalties : Table (Penalty α)}
    (family : Family models) {model : Model α} (member : model ∈ models) (call : Call α) :
    Answers (Store.Ready models penalties) model.Repeatable (model.oracle.call call)
      (Answer.Fills (call.bufferLength model.header)) (model.answer penalties call) := by
  have smooth : ∀ x, model.oracle.RealizesSmoothAt (Store.Ready models penalties) model.Repeatable
      model.constraintMeaning (model.smoothMeaning penalties) x := Model.realizesSmooth family member
  have constraints : model.oracle.RealizesConstraints (Store.Ready models penalties)
      model.constraintMeaning := Model.realizesConstraints family member
  have term : model.oracle.RealizesTerm (Store.Ready models penalties) model.termMeaning :=
    Model.realizesTerm family member
  have certainly : model.Repeatable → True := fun _ => trivial
  cases call with
  | objective x => exact answers_pack (smooth x).objective id fun _ _ => trivial
  | gradient x out =>
      exact answers_pack ((smooth x).gradient out) id fun _ fills =>
        fills.length.trans (model.nvar_smoothMeaning penalties)
  | objectiveGradient x out =>
      exact answers_pack ((smooth x).objectiveGradient out) id fun _ fills =>
        fills.length.trans (model.nvar_smoothMeaning penalties)
  | constraints x out =>
      exact answers_pack (constraints.constraints x out) certainly fun _ fills =>
        fills.length.trans model.ncon_constraintMeaning
  | objectiveConstraints x out =>
      exact answers_pack ((smooth x).objectiveConstraints out) id fun _ fills =>
        fills.length.trans model.ncon_constraintMeaning
  | jacobianProduct x v out =>
      exact answers_pack (constraints.jacobianProduct x v out) certainly fun _ fills =>
        fills.length.trans model.ncon_constraintMeaning
  | adjointProduct x v out =>
      exact answers_pack (constraints.adjointProduct x v out) certainly fun _ fills =>
        fills.length.trans model.nvar_constraintMeaning
  | project v out =>
      exact answers_pack (constraints.project v out) certainly fun _ fills =>
        fills.length.trans model.ncon_constraintMeaning
  | distance v => exact answers_pack (constraints.distance v) certainly fun _ _ => trivial
  | proximal x step out =>
      exact answers_pack (term.proximal x step out) certainly fun _ fills =>
        fills.length.trans model.nvar_termMeaning
  | proximalWithValue x step out =>
      exact answers_pack (term.proximalWithValue x step out) certainly fun _ fills =>
        fills.length.trans model.nvar_termMeaning

namespace Feasibility

/-- What can be asked of feasibility problems only. -/
inductive Question (α : Type) where
  | infeasibility (x : Tensor α)
  | infeasibilityGradient (x : Tensor α) (out : Option (Tensor α))
  | violation (x : Tensor α)
  | proximalDistance (x : Tensor α)
  | unscaledDistance (x : Tensor α)

/-- The point that a question is about. -/
def Question.point : Question α → Tensor α
  | .infeasibility x | .infeasibilityGradient x _ | .violation x | .proximalDistance x
  | .unscaledDistance x => x

/-- Do what a question asks for. -/
def ask [Scalar α] (node : Feasibility α) (base : Oracle α) : Question α → Eval α (Answer α)
  | .infeasibility x => do return .scalar (← node.infeasibility base x)
  | .infeasibilityGradient x out => do return .vector (← node.infeasibilityGradient base x out)
  | .violation x => do return .scalar (← node.violation base x)
  | .proximalDistance x => do return .scalar (← node.proximalDistance x)
  | .unscaledDistance x => do return .scalar (← node.unscaledDistance x)

variable [Elementary α]

/-- The answer of a feasibility problem to a question. -/
def reply (node : Feasibility α) (base : ConstraintMeaning α) :
    Question α → Except (Error α) (Answer α)
  | .infeasibility x => do return .scalar (← node.infeasibilityAt base x)
  | .infeasibilityGradient x out => do
      return .vector (← node.infeasibilityGradientAt base x out)
  | .violation x => do return .scalar (← node.violationAt base x)
  | .proximalDistance x => do return .scalar (← node.proximalDistanceAt x)
  | .unscaledDistance x => do return .scalar (← node.unscaledDistanceAt x)

/-- Questions are answered with whatever residual the problem finds at their point. -/
theorem answers_ask_of_residual {models : List (Model α)} {penalties : Table (Penalty α)}
    (family : Family models) {valid : Store α → Prop}
    (steady : Store.Steady models penalties valid) {certain : Prop} {node : Feasibility α}
    {base : Model α} (member : .feasibility node base ∈ models) {meaning : ConstraintMeaning α}
    (adjoint : meaning.adjointProductAt = base.constraintMeaning.adjointProductAt)
    (question : Question α)
    (residual : Answers valid certain (node.residual base.oracle question.point.entries)
      (·.length = base.header.ncon) (residualMeaning meaning question.point.entries)) :
    Answers valid certain (node.ask base.oracle question) (Answer.Fills node.header.nvar)
      (node.reply meaning question) := by
  cases question with
  | infeasibility x => exact answers_pack (answers_infeasibility residual) id fun _ _ => trivial
  | infeasibilityGradient x out =>
      have gradient := answers_infeasibilityGradient family steady member (x := x) residual adjoint out
      exact answers_pack gradient id fun _ length => length
  | violation x => exact answers_pack (answers_violation residual) id fun _ _ => trivial
  | proximalDistance x => exact answers_pack (answers_proximalDistance x) id fun _ _ => trivial
  | unscaledDistance x => exact answers_pack (answers_unscaledDistance x) id fun _ _ => trivial

/-- Over a base that is a function of the point every question is answered as a function of the point,
whatever happened before. -/
theorem answers_ask {models : List (Model α)} {penalties : Table (Penalty α)}
    (family : Family models) {node : Feasibility α} {base : Model α}
    (member : .feasibility node base ∈ models) (question : Question α) :
    Answers (Store.Ready models penalties) base.PointFunction (node.ask base.oracle question)
      (Answer.Fills node.header.nvar) (node.reply base.constraintMeaning question) :=
  answers_ask_of_residual family (Store.Ready.steady family) member rfl question
    (answers_residual family member)

end Feasibility

end CompositeModels
