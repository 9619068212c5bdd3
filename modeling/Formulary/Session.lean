import Formulary.Evaluation
import Formulary.Formula.Parse
import Formulary.Formula.Render
import Formulary.Journal.Event
import Formulary.Number.Conversion

/-!
# Sessions

A session keeps one formula together with its variables and its mode of arithmetic, so that the
formula can be evaluated again and again while the variables change. Each step of a session gives
an answer or refuses, and tells which events it leaves for the log. A refused step changes neither
the formula nor the mode nor the variables.

## Main results

* `evaluate_formula`, `evaluate_mode`: an evaluation keeps the formula and the mode.
-/

namespace Formulary

/-- A **session**. -/
structure Session where
  store : Store := .empty
  formula : Option Formula := none
  mode : Mode := .safe
  samples : Samples
  /-- How many samples were drawn. -/
  drawn : Nat := 0

namespace Session

/-- A **step** of a session. -/
inductive Step where
  /-- Starts over without formula and variables, and with a stream of samples. -/
  | restart (mode : Mode) (samples : Samples)
  /-- Starts over with a formula, variables and a stream of samples. -/
  | adopt (formula : Formula) (store : Store) (mode : Mode) (samples : Samples)
  /-- Sets a variable to the number that a text spells. -/
  | put (name text : String)
  /-- Reads a variable. -/
  | get (name : String)
  /-- Lists the variables. -/
  | listVariables
  /-- Removes a variable. -/
  | remove (name : String)
  /-- Sets the formula from its text. -/
  | setFormula (text : String) (declared : Option (List String))
  /-- Judges a formula text without setting it. -/
  | judge (text : String) (declared : Option (List String))
  /-- Chooses the mode of arithmetic. -/
  | setMode (mode : Mode)
  /-- Evaluates the formula. -/
  | calculate
  /-- Evaluates the formula and drops the fraction. -/
  | calculateWhole
  /-- Shows the formula. -/
  | showText
  /-- Shows the formula and the variables. -/
  | summarize
  /-- Gives the formula. -/
  | showFormula

/-- The **answer** to a step. -/
inductive Answer where
  /-- The step was done; the mode is the one after it. -/
  | done (mode : Mode)
  | number (x : Float)
  | whole (n : Int)
  | store (s : Store)
  | verdict (v : Verdict)
  | text (s : String)
  | formula (f : Option Formula)

/-- Why a step is **refused**. -/
inductive Refusal where
  /-- The formula is faulty, or a variable is missing. -/
  | fault (f : Fault)
  /-- A value cannot be converted. -/
  | conversion (f : ConversionFault)
  /-- There is no formula to evaluate. -/
  | noFormula
  /-- An aggregate of the formula never passes its limit. -/
  | endless
  deriving DecidableEq, Repr

/-- The refusal in words. -/
def Refusal.message : Refusal → String
  | fault f => f.message
  | conversion f => f.message
  | noFormula => "No formula has been set"
  | endless => ""

/-- A **turn**: the answer to a step or its refusal, the session after it, and the events that it
leaves for the log. -/
structure Turn where
  answer : Except Refusal Answer
  next : Session
  events : List Event := []

/-! ### Text -/

/-- The text of the formula, or `None` without one. -/
def text (s : Session) : String :=
  match s.formula with
  | some f => f.render
  | none => "None"

/-- The variables between braces. -/
def variablesText (s : Session) : String :=
  let entry (e : String × Float) : String := Text.quoted e.1 ++ ": " ++ Number.standard e.2
  "\x7b" ++ ", ".intercalate (s.store.entries.map entry) ++ "\x7d"

/-! ### Events -/

/-- The event of a formula that was accepted. -/
def parsedEvent (text : String) (f : Formula) : Event :=
  .ofFormula .formulaParsed .info "Formula accepted" text none none
    [("rendered", .text f.render)]

/-- The event of a formula that was rejected. -/
def rejectedEvent (text : String) (fault : Fault) : Event :=
  .ofFormula .formulaRejected .warning fault.message text none (some fault.code) []

/-- The event of an evaluation that met a missing variable. -/
def failedEvent (f : Formula) (mode : Mode) (fault : Fault) : Event :=
  .ofFormula .formulaFailed .error fault.message f.render (some mode.isStrict) (some fault.code) []

/-- The event of a choice of mode. -/
def modeEvent (mode : Mode) : Event where
  level := .info
  kind := .modeChanged
  message :=
    if mode.isStrict then "Operations causing numeric faults will return nan/inf"
    else "Operations causing numeric faults will return 0"
  context := [("strict", .bool mode.isStrict)]

/-! ### Steps -/

/-- **Evaluates** the formula on the variables. -/
def evaluate (s : Session) : Except Refusal Float × Session × List Event :=
  match s.formula with
  | none => (.error .noFormula, s, [])
  | some f =>
    let outcome := f.run s.mode s.samples { store := s.store, drawn := s.drawn }
    let next := { s with store := outcome.2.store, drawn := outcome.2.drawn }
    match outcome.1 with
    | .ok x => (.ok x, next, [])
    | .error .endless => (.error .endless, next, [])
    | .error (.unbound name available) =>
      let fault := Fault.unknownVariable name available
      (.error (.fault fault), next, [failedEvent f s.mode fault])

/-- An evaluation keeps the formula. -/
@[simp] theorem evaluate_formula (s : Session) : s.evaluate.2.1.formula = s.formula := by
  unfold evaluate
  split
  · rfl
  · simp only
    split <;> simp_all

/-- An evaluation keeps the mode. -/
@[simp] theorem evaluate_mode (s : Session) : s.evaluate.2.1.mode = s.mode := by
  unfold evaluate
  split
  · rfl
  · simp only
    split <;> rfl

/-- Sets the formula from its text. -/
def withFormula (s : Session) (text : String) (declared : Option (List String)) : Turn :=
  match Formula.ofText text declared with
  | .ok f =>
    let next := { s with formula := some f }
    { answer := .ok (.done next.mode), next, events := [parsedEvent text f] }
  | .error fault =>
    { answer := .error (.fault fault), next := s
      events := if fault.isUserError then [rejectedEvent text fault] else [] }

/-- Reads a variable. -/
def lookUp (s : Session) (name : String) : Except Refusal Answer :=
  match s.store.get? name with
  | some x => .ok (.number x)
  | none => .error (.fault (.unknownVariable name (Text.sortNames s.store.names)))

/-- A turn that is done with the given session. -/
def doneWith (next : Session) (events : List Event) : Turn where
  answer := .ok (.done next.mode)
  next
  events

/-- A turn that leaves the session as it is. -/
def answering (s : Session) (answer : Except Refusal Answer) : Turn where
  answer
  next := s

/-- Takes one **step**. -/
def step (s : Session) : Step → Turn
  | .restart mode samples => doneWith { mode, samples } []
  | .adopt formula store mode samples =>
    doneWith { formula := some formula, store, mode, samples } []
  | .put name text =>
    match Number.parse text with
    | .ok x => doneWith { s with store := s.store.put name x } []
    | .error fault => answering s (.error (.conversion fault))
  | .get name => answering s (s.lookUp name)
  | .listVariables => answering s (.ok (.store s.store))
  | .remove name => doneWith { s with store := s.store.erase name } []
  | .setFormula text declared => s.withFormula text declared
  | .judge text declared =>
    match Verdict.ofText text declared with
    | .ok verdict => answering s (.ok (.verdict verdict))
    | .error fault => answering s (.error (.fault fault))
  | .setMode mode => doneWith { s with mode } [modeEvent mode]
  | .calculate =>
    let (result, next, events) := s.evaluate
    { answer := result.map .number, next, events }
  | .calculateWhole =>
    let (result, next, events) := s.evaluate
    let answer :=
      match result with
      | .error refusal => .error refusal
      | .ok x =>
        match Number.toWhole x with
        | .ok n => .ok (.whole n)
        | .error fault => .error (.conversion fault)
    { answer, next, events }
  | .showText => answering s (.ok (.text s.text))
  | .summarize => answering s (.ok (.text (s.text ++ "\n" ++ s.variablesText)))
  | .showFormula => answering s (.ok (.formula s.formula))

end Session

end Formulary
