import Formulary.CommandLine.Arguments
import Formulary.Config
import Formulary.Formula.Document
import Formulary.Json.Printer
import Formulary.Session
import Formulary.Table.Csv

/-!
# Running commands

Every request ends in one of six ways. It is done, or it declines a formula that it was to judge;
it fails with a message for the user; it was misused, or met a table that cannot be read; or it
crashes for a reason that is not reported to the user as a message.

Commands take what is not theirs from outside: the disk, the format of the configuration file, and
the generator of random samples.

## Main results

* `exitCode_eq_zero_iff`: only a request that is done exits with zero.
-/

namespace Formulary.CommandLine

/-- Why a command **crashes**. -/
inductive Crash where
  /-- The stages of the library contradict each other. -/
  | contradiction
  /-- A setting cannot be converted. -/
  | conversion (fault : ConversionFault)
  /-- The configuration file does not have its format. -/
  | format (message : String)
  /-- A file operation fails. -/
  | disk (fault : DiskFault)
  /-- An aggregate never passes its limit. -/
  | endless
  deriving DecidableEq, Repr

/-- How a command **ends**. -/
inductive Ending where
  /-- The command is done. -/
  | done (output : String)
  /-- The formula was judged and rejected. -/
  | declined (output : String)
  /-- The command fails with a message. -/
  | failed (message : String)
  /-- The file holds no table. -/
  | unreadable (file : String)
  /-- The arguments do not fit. -/
  | misused
  /-- The command crashes. -/
  | crashed (cause : Crash)
  deriving DecidableEq, Repr

namespace Ending

/-- The exit code. -/
def exitCode : Ending → Nat
  | done _ => 0
  | misused => 2
  | _ => 1

/-- The text on the standard output. -/
def output : Ending → String
  | done s => s
  | declined s => s
  | _ => ""

/-- The message of a failure. -/
def message? : Ending → Option String
  | failed message => some message
  | unreadable file => some ("Cannot read " ++ file ++ ": it holds no table")
  | _ => none

/-- The text on the standard error output. -/
def errorOutput (e : Ending) : String :=
  match e.message? with
  | some message => "Error: " ++ message ++ "\n"
  | none => ""

/-- Only a request that is done exits with zero. -/
theorem exitCode_eq_zero_iff (e : Ending) : e.exitCode = 0 ↔ ∃ s, e = done s := by
  cases e <;> simp [exitCode]

end Ending

/-- The name and version of the program. -/
def versionLine : String := "rtformula, version 0.3.0\n"

/-- The ending for a fault: a message for the author of the formula, or a crash. -/
def endingOf (fault : Fault) : Ending :=
  if fault.isUserError then .failed ("[" ++ fault.code ++ "] " ++ fault.message)
  else .crashed .contradiction

/-! ### Inspecting formulas -/

/-- Shows the tokens of a formula. -/
def showTokens (formula : String) (postorder json : Bool) : Ending :=
  let found := do
    let tokens ← Token.ofText formula
    if postorder then return Token.toPostorder (← Token.validate tokens) else return tokens
  match found with
  | .error fault => endingOf fault
  | .ok tokens =>
    if json then
      let item (t : Token) : Json := .object [("text", .text t.text), ("class", .whole t.kind.rank)]
      .done (Json.print .listing (.array (tokens.map item)) ++ "\n")
    else .done (String.join (tokens.map fun t => t.listing ++ "\n"))

/-- Judges a formula. -/
def judge (formula : String) (declared : List String) (json : Bool) : Ending :=
  match Verdict.ofText formula (if declared.isEmpty then none else some declared) with
  | .error fault => endingOf fault
  | .ok verdict =>
    let document := Json.print .document verdict.document ++ "\n"
    match verdict with
    | .accepted f => .done (if json then document else "ok: " ++ f.render ++ "\n")
    | .rejected fault => if json then .declined document else endingOf fault

/-- Shows a formula. -/
def showFormula (formula : String) (json : Bool) : Ending :=
  match Formula.ofText formula none with
  | .error fault => endingOf fault
  | .ok f => .done ((if json then Json.print .document f.document else f.render) ++ "\n")

/-! ### Settings -/

/-- Sets the variables of assignments `name=value`; the first that is malformed gives the
failure. -/
def assign (store : Store) : List String → Except String Store
  | [] => .ok store
  | item :: rest =>
    match splitEquals item with
    | none =>
      .error ("Invalid --var format: " ++ Text.quoted item ++ ". Use name=value.")
    | some (name, value) =>
      match Number.read? value with
      | none =>
        .error ("Invalid --var value for " ++ Text.quoted name ++ ": " ++ Text.quoted value ++
          " is not a number.")
      | some x => assign (store.put (Text.trim name) x) rest

/-- The variables of assignments alone, later set over those of the configuration. -/
def assignments (items : List String) : Except String Store :=
  assign .empty items

/-- The ending for a fault of the configuration. -/
def endingOfConfig (fault : ConfigFault) : Ending :=
  match fault with
  | .conversion f => if f.isRefusal then .failed f.message else .crashed (.conversion f)
  | .format (.malformed message) => .crashed (.format message)
  | _ => .failed fault.message

/-- The ending for a log that cannot be opened. -/
def endingOfLog : Config.LogFault → Ending
  | .conversion fault => .crashed (.conversion fault)
  | .disk fault => .crashed (.disk fault)

section Commands

variable {m : Type → Type} [Monad m]

/-- A **command**: it ends early, or goes on with a value. -/
abbrev Command (m : Type → Type) := ExceptT Ending m

/-- What a path leads to; the empty path leads nowhere. -/
def kindOf (disk : Disk (Command m)) (path : String) : Command m (Option EntryKind) :=
  if path.isEmpty then pure none else disk.kind (Path.ofString path)

/-- The configuration of a command and its log. -/
def configure (format : Document.Format) (disk : Disk (Command m)) :
    Option String → Command m (Config × Option Sink)
  | none => return ({}, none)
  | some text => do
    let path := Path.ofString text
    let isDirectory := (← disk.kind path) == some .directory
    match ← Config.load format disk path with
    | .error fault => throw (endingOfConfig fault)
    | .ok config =>
      match ← config.openLog disk (some (if isDirectory then path else path.parent)) with
      | .error fault => throw (endingOfLog fault)
      | .ok sink => return (config, sink)

/-- Refuses a configuration path that leads nowhere. -/
def requireConfig (disk : Disk (Command m)) : Option String → Command m Unit
  | none => return ()
  | some path => do if (← kindOf disk path).isNone then throw .misused

/-! ### Evaluation -/

/-- The event of a value that was shown. -/
def evaluatedEvent (s : Session) (value : Float) : Event :=
  .ofFormula .formulaEvaluated .info "Formula evaluated" s.text (some s.mode.isStrict) none
    [("value", .text (Number.standard value)),
     ("variables", .array ((Text.sortNames s.store.names).map .text))]

/-- The ending for a refused step of a session. -/
def endingOfRefusal (refusal : Session.Refusal) : Ending :=
  match refusal with
  | .fault fault => endingOf fault
  | .conversion fault => .crashed (.conversion fault)
  | .noFormula => .failed refusal.message
  | .endless => .crashed .endless

/-- Evaluates a formula. -/
def evaluate (format : Document.Format) (disk : Disk (Command m)) (samples : Samples)
    (formula : String) (items declared : List String) (strict : Option Bool)
    (configPath : Option String) : Command m String := do
  requireConfig disk configPath
  let (config, sink) ← configure format disk configPath
  match assignments items with
  | .error message => throw (.failed message)
  | .ok assigned =>
    let mode := Mode.ofBool (strict.getD config.strict)
    let session : Session :=
      { store := config.store.putAll assigned.entries, mode, samples }
    let names := if declared.isEmpty then config.declared else some declared
    let turn := session.withFormula formula names
    Sink.emitAll disk sink turn.events
    match turn.answer with
    | .error refusal => throw (endingOfRefusal refusal)
    | .ok _ =>
      let (result, next, events) := turn.next.evaluate
      Sink.emitAll disk sink events
      match result with
      | .error refusal => throw (endingOfRefusal refusal)
      | .ok value =>
        Sink.emit disk sink (evaluatedEvent next value)
        return Number.standard value ++ "\n"

/-! ### Tables -/

/-- The ending for a table that cannot be evaluated. -/
def endingOfTable (fault : TableFault) : Ending :=
  match fault with
  | .fault f => endingOf f
  | .notNumeric .. => .failed fault.message
  | .endless => .crashed .endless

/-- Refuses paths that a table cannot be read from or written to. -/
def requireFiles (disk : Disk (Command m)) (file : String) (target : Option String) :
    Command m Unit := do
  if (← kindOf disk file) != some .file then throw .misused
  match target with
  | none => return ()
  | some path => if (← kindOf disk path) == some .directory then throw .misused

/-- Reads the table in a file. -/
def readTable (disk : Disk (Command m)) (file : String) : Command m Table := do
  match ← disk.read (Path.ofString file) with
  | .error fault => throw (.crashed (.disk fault))
  | .ok bytes =>
    match Csv.read (String.ofList (Text.decodeUtf8 bytes)) with
    | none => throw (.unreadable file)
    | some table => return table

/-- Evaluates a formula on every row of a table. -/
def evaluateTable (format : Document.Format) (disk : Disk (Command m)) (samples : Samples)
    (formula file output : String) (strict : Option Bool) (configPath target : Option String) :
    Command m String := do
  requireFiles disk file target
  requireConfig disk configPath
  let (config, sink) ← configure format disk configPath
  let mode := Mode.ofBool (strict.getD config.strict)
  let table ← readTable disk file
  match Formula.ofText formula config.declared with
  | .error fault => throw (endingOf fault)
  | .ok f =>
    match table.evaluate f output mode samples with
    | .error fault => throw (endingOfTable fault)
    | .ok result =>
      Sink.emit disk sink (Table.evaluatedEvent f mode output table.rowCount)
      let text := Csv.write result
      match target with
      | none => return text
      | some path =>
        match ← disk.write (Path.ofString path) (Text.encodeUtf8 text) with
        | .error fault => throw (.crashed (.disk fault))
        | .ok () =>
          return "Wrote " ++ toString result.rowCount ++ " rows to " ++ path ++ "\n"

/-! ### Requests -/

/-- The ending of a command. -/
def Command.ending (command : Command m String) : m Ending := do
  match ← command.run with
  | .ok output => return .done output
  | .error ending => return ending

/-- **Runs** a request. -/
def Request.run (format : Document.Format) (generator : Generator) (disk : Disk m) :
    Request → m Ending
  | .version => return .done versionLine
  | .tokens formula postorder json => return showTokens formula postorder json
  | .check formula declared json => return judge formula declared json
  | .render formula json => return showFormula formula json
  | .evaluate formula items declared strict config seed =>
    (CommandLine.evaluate format disk.lift (generator seed) formula items declared strict
      config).ending
  | .table formula file output strict config target =>
    (evaluateTable format disk.lift (generator none) formula file output strict config
      target).ending

/-- Runs a command line. -/
def runArguments (format : Document.Format) (generator : Generator) (disk : Disk m)
    (args : List String) : m Ending :=
  match Request.ofArguments args with
  | some request => request.run format generator disk
  | none => return .misused

end Commands

end Formulary.CommandLine
