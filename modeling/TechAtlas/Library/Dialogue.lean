import Mathlib.Tactic

set_option autoImplicit false

/- Programs that talk to an environment. Every exchange is added to the trace,
newest first, and the environment answers by the whole trace so far: nothing
binds it to answer the same question twice in the same way. -/
namespace Library

variable {E ε δ α β : Type}

/-- A program that may fail and that adds its exchanges to the trace. -/
def Dialogue (E ε α : Type) : Type := List E → Except ε α × List E

namespace Dialogue

def bind (first : Dialogue E ε α) (next : α → Dialogue E ε β) : Dialogue E ε β := fun trace =>
  match first trace with
  | (.ok value, trace) => next value trace
  | (.error error, trace) => (.error error, trace)

instance : Monad (Dialogue E ε) where
  pure value := fun trace => (.ok value, trace)
  bind := bind

def fail (error : ε) : Dialogue E ε α := fun trace => (.error error, trace)

/-- Looks at the environment without an exchange. -/
def observe (view : List E → α) : Dialogue E ε α := fun trace => (.ok (view trace), trace)

/-- One question to the environment, recorded with its answer. -/
def exchange (answer : List E → α) (record : α → E) : Dialogue E ε α := fun trace =>
  (.ok (answer trace), record (answer trace) :: trace)

def mapError (f : δ → ε) (program : Dialogue E δ α) : Dialogue E ε α := fun trace =>
  ((program trace).1.mapError f, (program trace).2)

section Runs

variable {first : Dialogue E ε α} {next : α → Dialogue E ε β} {trace later : List E}

@[simp] theorem pure_apply (value : α) (trace : List E) :
    (Pure.pure value : Dialogue E ε α) trace = (.ok value, trace) := rfl

@[simp] theorem fail_apply (error : ε) (trace : List E) :
    (fail error : Dialogue E ε α) trace = (.error error, trace) := rfl

theorem bind_of_ok {value : α} (run : first trace = (.ok value, later)) :
    (first >>= next) trace = next value later := by
  change bind first next trace = next value later
  rw [bind, run]

theorem bind_of_error {error : ε} (run : first trace = (.error error, later)) :
    (first >>= next) trace = (.error error, later) := by
  change bind first next trace = (.error error, later)
  rw [bind, run]

@[simp] theorem observe_bind (view : List E → α) (next : α → Dialogue E ε β) (trace : List E) :
    (observe view >>= next) trace = next (view trace) trace := rfl

@[simp] theorem exchange_bind (answer : List E → α) (record : α → E) (next : α → Dialogue E ε β)
    (trace : List E) :
    (exchange answer record >>= next) trace = next (answer trace) (record (answer trace) :: trace) :=
  rfl

end Runs

/-- Run from a trace that satisfies `pre`, the program returns a value that with
the later trace satisfies `post`, or fails with an error that satisfies `failure`. -/
def Triple (pre : List E → Prop) (program : Dialogue E ε α) (post : α → List E → Prop)
    (failure : ε → List E → Prop) : Prop :=
  ∀ trace, pre trace → match program trace with
    | (.ok value, later) => post value later
    | (.error error, later) => failure error later

variable {pre pre' : List E → Prop} {post post' : α → List E → Prop}
  {failure failure' : ε → List E → Prop}

theorem Triple.conseq {program : Dialogue E ε α} (triple : Triple pre program post failure)
    (before : ∀ trace, pre' trace → pre trace)
    (after : ∀ value trace, post value trace → post' value trace)
    (failed : ∀ error trace, failure error trace → failure' error trace) :
    Triple pre' program post' failure' := by
  intro trace holds
  have ended := triple trace (before trace holds)
  rcases result : program trace with ⟨error | value, later⟩
  · rw [result] at ended
    exact failed error later ended
  · rw [result] at ended
    exact after value later ended

theorem Triple.pure {value : α} (holds : ∀ trace, pre trace → post value trace) :
    Triple pre (Pure.pure value : Dialogue E ε α) post failure := holds

theorem Triple.fail {error : ε} (holds : ∀ trace, pre trace → failure error trace) :
    Triple pre (Dialogue.fail error : Dialogue E ε α) post failure := holds

theorem Triple.bind {first : Dialogue E ε β} {next : β → Dialogue E ε α}
    {mid : β → List E → Prop} (started : Triple pre first mid failure)
    (finished : ∀ value, Triple (mid value) (next value) post failure) :
    Triple pre (first >>= next) post failure := by
  intro trace holds
  have half := started trace holds
  change match Dialogue.bind first next trace with
    | (.ok value, later) => post value later
    | (.error error, later) => failure error later
  rw [Dialogue.bind]
  rcases result : first trace with ⟨error | value, later⟩
  · rw [result] at half
    exact half
  · rw [result] at half
    exact finished value later half

theorem Triple.observe {view : List E → β} {next : β → Dialogue E ε α}
    (continued : ∀ value, Triple (fun trace => pre trace ∧ view trace = value) (next value) post
      failure) :
    Triple pre (Dialogue.observe view >>= next) post failure :=
  fun trace holds => continued (view trace) trace ⟨holds, rfl⟩

/-- The rule for an exchange: the trace is one entry longer. -/
theorem Triple.exchange {answer : List E → β} {record : β → E} {next : β → Dialogue E ε α}
    (continued : ∀ value, Triple
      (fun trace => ∃ earlier, trace = record value :: earlier ∧ pre earlier ∧
        answer earlier = value) (next value) post failure) :
    Triple pre (Dialogue.exchange answer record >>= next) post failure :=
  fun trace holds => continued (answer trace) _ ⟨trace, rfl, holds, rfl⟩

theorem Triple.mapError {f : δ → ε} {program : Dialogue E δ α}
    (triple : Triple pre program post fun error => failure (f error)) :
    Triple pre (Dialogue.mapError f program) post failure := by
  intro trace holds
  have ended := triple trace holds
  rw [Dialogue.mapError]
  rcases result : program trace with ⟨error | value, later⟩
  · rw [result] at ended
    exact ended
  · rw [result] at ended
    exact ended

end Dialogue

end Library
