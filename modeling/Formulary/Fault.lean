import Formulary.Text.Quoted

/-!
# Faults of a formula

Why a formula is rejected. All but one of the faults are errors of its author; the last is a
contradiction between the stages of the library itself and is never the fault of a formula.

## Main results

* `Fault.position_unexpectedEnd`: an early end has no position.
* `Fault.map_map`: what is done to a success is done in one go.
-/

namespace Formulary

/-- What the grammar **wanted** in a place. -/
inductive Wanted where
  | operand
  | opening
  | counter
  | comma
  deriving DecidableEq, Repr

/-- The name of what was wanted. -/
def Wanted.text : Wanted → String
  | operand => "operand"
  | opening => "("
  | counter => "variable"
  | comma => ","

/-- Why the **counter** of a sum or product is refused. -/
inductive CounterRefusal where
  | number
  | compound
  | reserved
  | rebound
  deriving DecidableEq, Repr

/-- The reason in words. -/
def CounterRefusal.text : CounterRefusal → String
  | number => "a number was given instead of a variable"
  | compound => "the counter must be a plain variable"
  | reserved => "reserved names cannot be used as counters"
  | rebound => "already bound by an enclosing sum/mult"

/-- A **contradiction**: a sequence of tokens that is no listing of a formula. -/
inductive Contradiction where
  | missingOperand (operator : String)
  | unknownFunction (name : String)
  | unknownOperator (symbol : String)
  | unexpectedText (text : String)
  | rootCount (count : Nat)
  deriving DecidableEq, Repr

/-- The contradiction in words. -/
def Contradiction.text : Contradiction → String
  | missingOperand operator => "operator " ++ Text.quoted operator ++ " is missing an operand"
  | unknownFunction name => "unknown function " ++ Text.quoted name
  | unknownOperator symbol => "unknown operator " ++ Text.quoted symbol
  | unexpectedText text => "unexpected " ++ Text.quoted text ++ " in postfix sequence"
  | rootCount count => "expected one root node, found " ++ toString count

/-- A **fault**: the cause for which a formula is rejected. -/
inductive Fault where
  /-- The text has no tokens. -/
  | emptyInput
  /-- No token starts with the character. -/
  | unrecognizedCharacter (char : Char) (column : Nat)
  /-- A token stands where the grammar does not allow it. -/
  | unexpectedToken (actual : String) (wanted : Option Wanted) (column : Option Nat)
  /-- A parenthesis is never closed. -/
  | unevenParentheses (column : Option Nat)
  /-- The formula ends too early. -/
  | unexpectedEnd (wanted : Wanted)
  /-- A variable is neither declared nor set. -/
  | unknownVariable (name : String) (available : List String)
  /-- The counter of a sum or product cannot be bound. -/
  | invalidCounter (name : String) (reason : CounterRefusal)
  /-- The stages of the library contradict each other. -/
  | inconsistency (cause : Contradiction)
  deriving DecidableEq, Repr

namespace Fault

/-- The **code** of a fault in reports and in the event log. -/
def code : Fault → String
  | emptyInput => "empty_input"
  | unrecognizedCharacter .. => "unrecognized_character"
  | unexpectedToken .. => "unexpected_token"
  | unevenParentheses .. => "uneven_parentheses"
  | unexpectedEnd .. => "unexpected_end_of_input"
  | unknownVariable .. => "unknown_variable"
  | invalidCounter .. => "invalid_bound_variable"
  | inconsistency .. => "internal_inconsistency"

/-- Whether the author of the formula is to blame. -/
def isUserError : Fault → Bool
  | inconsistency .. => false
  | _ => true

/-- The column at which the fault shows, if it has one. -/
def position : Fault → Option Nat
  | unrecognizedCharacter _ column => some column
  | unexpectedToken _ _ column => column
  | unevenParentheses column => column
  | _ => none

/-- The fault in words, without its column. -/
def summary : Fault → String
  | emptyInput => "Formula is empty"
  | unrecognizedCharacter char _ => "Unexpected character: " ++ Text.quoted char.toString
  | unexpectedToken actual none _ => "Unexpected symbol: " ++ Text.quoted actual
  | unexpectedToken actual (some wanted) _ =>
    "Unexpected symbol: expected " ++ Text.quoted wanted.text ++ ", got " ++ Text.quoted actual
  | unevenParentheses _ => "Number of parentheses is uneven"
  | unexpectedEnd wanted => "Unexpected end of formula, expected " ++ Text.quoted wanted.text
  | unknownVariable name available =>
    "Unknown variable: " ++ Text.quoted name ++
      (if available.isEmpty then "" else ". Available: " ++ Text.quotedList available)
  | invalidCounter name reason =>
    "Invalid counting variable " ++ Text.quoted name ++ ": " ++ reason.text
  | inconsistency cause => "Internal inconsistency: " ++ cause.text

/-- The fault in words. -/
def message (fault : Fault) : String :=
  match fault.position with
  | some column => fault.summary ++ " (at column " ++ toString column ++ ")"
  | none => fault.summary

/-- An early end has no position. -/
@[simp] theorem position_unexpectedEnd (wanted : Wanted) : (unexpectedEnd wanted).position = none :=
  rfl

/-- What is done to a success is done in one go. -/
@[simp] theorem map_map {α β γ : Type} (x : Except Fault α) (g : α → β) (f : β → γ) :
    (x.map g).map f = x.map fun a => f (g a) := by
  cases x <;> rfl

end Fault

end Formulary
