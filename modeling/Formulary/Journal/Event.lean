import Formulary.Json.Basic
import Formulary.Text.Sorting

/-!
# Events

What happens to formulas is recorded as events. Before an event is recorded, long texts in its
context are cut, and its context is checked for the keys by which the event can be traced to a
formula; an event that lacks one is downgraded to a warning that names the missing keys.

## Main results

* `truncateText_of_short`: a text within the limit is kept.
-/

namespace Formulary

/-- The **level** of an event. -/
inductive Level where
  | info
  | warning
  | error
  deriving DecidableEq, Repr

namespace Level

/-- The name of a level. -/
def name : Level → String
  | info => "info"
  | warning => "warning"
  | error => "error"

/-- The level with a name. -/
def ofName? (name : String) : Option Level :=
  [info, warning, error].find? (·.name == name)

end Level

/-- The **kind** of an event. -/
inductive EventKind where
  | formulaParsed
  | formulaRejected
  | formulaEvaluated
  | formulaFailed
  | tableEvaluated
  | modeChanged
  deriving DecidableEq, Repr

namespace EventKind

/-- All kinds. -/
def all : List EventKind :=
  [formulaParsed, formulaRejected, formulaEvaluated, formulaFailed, tableEvaluated, modeChanged]

/-- The name of a kind. -/
def name : EventKind → String
  | formulaParsed => "formula_parsed"
  | formulaRejected => "formula_rejected"
  | formulaEvaluated => "formula_evaluated"
  | formulaFailed => "formula_eval_failed"
  | tableEvaluated => "table_evaluated"
  | modeChanged => "mode_changed"

/-- The kind with a name. -/
def ofName? (name : String) : Option EventKind :=
  all.find? (·.name == name)

/-- The **required keys**: what the context of an event has to hold, sorted. -/
def requiredKeys : EventKind → List String
  | tableEvaluated => ["formula", "rows"]
  | modeChanged => ["strict"]
  | _ => ["formula"]

end EventKind

/-- An **event**: its level and kind, a message, a context, and the code of a fault. -/
structure Event where
  level : Level
  kind : EventKind
  message : String := ""
  context : Json.Fields := []
  code : Option String := none

/-! ### Cutting long texts -/

namespace Json

/-- The most characters that a text in a context keeps. -/
def maxTextLength : Nat := 256

/-- The mark behind a text that was cut. -/
def truncationMark : String := "...[truncated]"

/-- Cuts a text that is too long. -/
def truncateText (s : String) : String :=
  if maxTextLength < s.toList.length then
    String.ofList (s.toList.take maxTextLength ++ truncationMark.toList)
  else s

mutual

/-- Cuts the long texts in a value, at any depth. Names of fields are kept. -/
def truncate : Json → Json
  | .text s => .text (truncateText s)
  | .array items => .array (truncateItems items)
  | .object fields => .object (truncateFields fields)
  | value => value

/-- Cuts the long texts in the items of an array. -/
def truncateItems : List Json → List Json
  | [] => []
  | item :: rest => truncate item :: truncateItems rest

/-- Cuts the long texts in the fields of an object. -/
def truncateFields : List (String × Json) → List (String × Json)
  | [] => []
  | (name, value) :: rest => (name, truncate value) :: truncateFields rest

end

/-- A text within the limit is kept. -/
theorem truncateText_of_short {s : String} (h : s.toList.length ≤ maxTextLength) :
    truncateText s = s := by
  rw [truncateText, if_neg (by omega)]

end Json

/-! ### Making and recording events -/

namespace Event

/-- An event about a formula: its context holds the formula, the mode if known, and what is added,
which may replace both. -/
def ofFormula (kind : EventKind) (level : Level) (message formula : String) (strict : Option Bool)
    (code : Option String) (more : Json.Fields) : Event where
  level
  kind
  message
  context :=
    let base : Json.Fields := [("formula", .text formula)]
    let base := match strict with
      | some flag => base ++ [("strict", Json.bool flag)]
      | none => base
    base.setAll more
  code

/-- The required keys that the context lacks. -/
def missingKeys (e : Event) : List String :=
  e.kind.requiredKeys.filter fun key => !Json.Fields.has e.context key

/-- The event, or a warning that names the required keys it lacks. -/
def attributed (e : Event) : Event :=
  if e.missingKeys.isEmpty then e
  else
    { e with
      level := .warning
      context :=
        Json.Fields.set "_missing_attribution" (.array (e.missingKeys.map .text)) e.context }

/-- The event as it is recorded: with long texts cut and missing keys named. -/
def prepared (e : Event) : Event :=
  attributed { e with context := Json.truncateFields e.context }

/-- The **record** of an event at a time. -/
def record (e : Event) (time : String) : Json :=
  .object
    [("schema_version", .whole 1),
     ("ts", .text time),
     ("level", .text e.level.name),
     ("event_type", .text e.kind.name),
     ("context", .object e.context),
     ("message", .text e.message),
     ("error_code", match e.code with
        | some code => .text code
        | none => .null)]

end Event

end Formulary
