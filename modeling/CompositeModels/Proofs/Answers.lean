/-
Module: CompositeModels.Proofs.Answers
Purpose: When a computation on the store answers as a function would. The function knows neither the
  store nor any buffer. A relation between the two that is closed under sequencing carries the
  agreement from single evaluations to whole operations.
Main exports: run_bind_of_ok, run_bind_of_error, Eval.outcome, Eval.after, Eval.AnswersAt, Eval.Answers,
  Eval.AnswersAt.bind
-/
import CompositeModels.Store

namespace CompositeModels

variable {α β γ : Type}

section Sequencing

variable {ε σ : Type} {program : EStateM ε σ β} {next : β → EStateM ε σ γ} {state later : σ}

/-- What follows a success starts from the value and the state that it gave. -/
theorem run_bind_of_ok {value : β} (run : program.run state = .ok value later) :
    (program >>= next).run state = (next value).run later := by
  show EStateM.bind program next state = _
  rw [EStateM.bind, show program state = _ from run]
  rfl

/-- Nothing follows a failure. -/
theorem run_bind_of_error {cause : ε} (run : program.run state = .error cause later) :
    (program >>= next).run state = .error cause later := by
  show EStateM.bind program next state = _
  rw [EStateM.bind, show program state = _ from run]

end Sequencing

namespace Eval

/-- What a computation hands to its caller. -/
def outcome (program : Eval α β) (store : Store α) : Except (Error α) β :=
  match program.run store with
  | .ok value _ => .ok value
  | .error cause _ => .error cause

/-- The store that a computation leaves behind, also when it fails. -/
def after (program : Eval α β) (store : Store α) : Store α :=
  match program.run store with
  | .ok _ store => store
  | .error _ store => store

theorem outcome_of_run_ok {program : Eval α β} {store later : Store α} {value : β}
    (run : program.run store = .ok value later) : program.outcome store = .ok value := by
  rw [outcome, run]

theorem outcome_of_run_error {program : Eval α β} {store later : Store α} {cause : Error α}
    (run : program.run store = .error cause later) : program.outcome store = .error cause := by
  rw [outcome, run]

theorem after_of_run_error {program : Eval α β} {store later : Store α} {cause : Error α}
    (run : program.run store = .error cause later) : program.after store = later := by
  rw [after, run]

theorem after_of_run_ok {program : Eval α β} {store later : Store α} {value : β}
    (run : program.run store = .ok value later) : program.after store = later := by
  rw [after, run]

/-- From `store`, the computation ends in a valid store, and a value that it returns is good. Where the
answer is certain, it returns or fails exactly as `answer` says. -/
structure AnswersAt (valid : Store α → Prop) (certain : Prop) (program : Eval α β)
    (good : β → Prop) (answer : Except (Error α) β) (store : Store α) : Prop where
  keeps : valid (program.after store)
  good : ∀ value, program.outcome store = .ok value → good value
  agrees : certain → program.outcome store = answer

/-- The computation answers from every valid store. -/
def Answers (valid : Store α → Prop) (certain : Prop) (program : Eval α β) (good : β → Prop)
    (answer : Except (Error α) β) : Prop :=
  ∀ store, valid store → AnswersAt valid certain program good answer store

section Rules

variable {valid : Store α → Prop} {certain : Prop} {good : β → Prop} {store : Store α}

theorem AnswersAt.pure {value : β} (holds : valid store) (isGood : good value) :
    AnswersAt valid certain (pure value) good (.ok value) store where
  keeps := holds
  good := by
    intro other same
    cases same
    exact isGood
  agrees := fun _ => rfl

theorem AnswersAt.throw {cause : Error α} (holds : valid store) :
    AnswersAt valid certain (throw cause : Eval α β) good (.error cause) store where
  keeps := holds
  good := by
    intro value same
    cases same
  agrees := fun _ => rfl

theorem AnswersAt.ofExcept {answer : Except (Error α) β} (holds : valid store)
    (isGood : ∀ value, answer = .ok value → good value) :
    AnswersAt valid certain (ofExcept answer) good answer store := by
  cases answer with
  | ok value => exact .pure holds (isGood value rfl)
  | error cause => exact .throw holds

/-- An answer may be claimed under a stronger condition, and of its value less may be known. -/
theorem AnswersAt.mono {certain' : Prop} {good' : β → Prop} {program : Eval α β}
    {answer : Except (Error α) β} (answers : AnswersAt valid certain program good answer store)
    (condition : certain' → certain) (weaker : ∀ value, good value → good' value) :
    AnswersAt valid certain' program good' answer store where
  keeps := answers.keeps
  good := fun value same => weaker value (answers.good value same)
  agrees := fun holds => answers.agrees (condition holds)

/-- Where the answer is certain, a value that is returned is the one that the answer says. -/
theorem AnswersAt.certainly {program : Eval α β} {answer : Except (Error α) β}
    (answers : AnswersAt valid certain program good answer store) (holds : certain) :
    AnswersAt valid certain program (fun value => good value ∧ answer = .ok value) answer store where
  keeps := answers.keeps
  good := fun value same => ⟨answers.good value same, (answers.agrees holds).symm.trans same⟩
  agrees := answers.agrees

/-- Sequencing. What follows may start from any valid store with any good value, so that it need not
know what the first part did to the store. -/
theorem AnswersAt.bind {good' : γ → Prop} {program : Eval α β} {answer : Except (Error α) β}
    {next : β → Eval α γ} {answerNext : β → Except (Error α) γ}
    (first : AnswersAt valid certain program good answer store)
    (rest : ∀ value later, good value → valid later →
      AnswersAt valid certain (next value) good' (answerNext value) later) :
    AnswersAt valid certain (program >>= next) good' (answer >>= answerNext) store := by
  rcases first with ⟨keeps, isGood, agrees⟩
  cases run : program.run store with
  | ok value later =>
      have outcomeEq : program.outcome store = .ok value := outcome_of_run_ok run
      have continued : (program >>= next).run store = (next value).run later := run_bind_of_ok run
      have tail := rest value later (isGood value outcomeEq) (after_of_run_ok run ▸ keeps)
      refine ⟨?_, ?_, ?_⟩
      · rw [after, continued]
        exact tail.keeps
      · intro result same
        rw [outcome, continued] at same
        exact tail.good result same
      · intro holds
        rw [← agrees holds, outcomeEq, outcome, continued]
        exact tail.agrees holds
  | error cause later =>
      have outcomeEq : program.outcome store = .error cause := outcome_of_run_error run
      have stopped : (program >>= next).run store = .error cause later := run_bind_of_error run
      refine ⟨?_, ?_, ?_⟩
      · rw [after, stopped]
        rw [after, run] at keeps
        exact keeps
      · intro result same
        rw [outcome, stopped] at same
        cases same
      · intro holds
        rw [← agrees holds, outcomeEq, outcome, stopped]
        rfl

/-- Reading the store changes nothing, and what follows knows which store was read. -/
theorem AnswersAt.get_bind {next : Store α → Eval α β} {answer : Except (Error α) β}
    (rest : AnswersAt valid certain (next store) good answer store) :
    AnswersAt valid certain (get >>= next) good answer store :=
  ⟨rest.keeps, rest.good, rest.agrees⟩

/-- What follows a change starts from the changed store. -/
theorem AnswersAt.modify_bind {change : Store α → Store α} {next : PUnit → Eval α β}
    {answer : Except (Error α) β}
    (rest : AnswersAt valid certain (next ⟨⟩) good answer (change store)) :
    AnswersAt valid certain (modify change >>= next) good answer store :=
  ⟨rest.keeps, rest.good, rest.agrees⟩

theorem AnswersAt.set_bind {later : Store α} {next : PUnit → Eval α β} {answer : Except (Error α) β}
    (rest : AnswersAt valid certain (next ⟨⟩) good answer later) :
    AnswersAt valid certain (set later >>= next) good answer store :=
  ⟨rest.keeps, rest.good, rest.agrees⟩

/-- A length check either passes, with the lengths then known, or fails alike on both sides. -/
theorem AnswersAt.check_bind {expected : Nat} {shapes : List Shape} {next : Unit → Eval α β}
    {answerNext : Unit → Except (Error α) β} (holds : valid store)
    (rest : CompositeModels.checkVectors (α := α) expected shapes = .ok () →
      AnswersAt valid certain (next ()) good (answerNext ()) store) :
    AnswersAt valid certain (checkVectors expected shapes >>= next) good
      (CompositeModels.checkVectors expected shapes >>= answerNext) store := by
  unfold checkVectors
  cases checked : CompositeModels.checkVectors (α := α) expected shapes with
  | ok => exact rest checked
  | error cause => exact .throw holds

end Rules

end Eval

end CompositeModels
