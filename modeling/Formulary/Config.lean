import Formulary.Document
import Formulary.Journal.Sink
import Formulary.Store

/-!
# Configuration

A configuration document sets the mode, the declared names, the variables and the log. An empty
document means the defaults. The variables are converted to numbers, the declared names to texts
and the mode to a truth value when the document is loaded; the settings of the log are kept as
they are and looked at only when the log is opened.

The file of a configuration is read by a format that is given from outside, so a configuration is
loaded in the same way from every kind of file.

## Main results

* `ofDocument_of_not_truthy`, `ofBytes_nil`: an empty document and an empty file give the defaults.
-/

namespace Formulary

/-- A **configuration**. -/
structure Config where
  /-- Whether arithmetic is strict. -/
  strict : Bool := false
  /-- The names that a formula may use; without them, every name is allowed. -/
  declared : Option (List String) := none
  /-- The variables. -/
  store : Store := .empty
  /-- Where the log is. -/
  logDirectory : Document := .null
  /-- Whether each record of the log is forced onto the disk. -/
  fsync : Document := .bool false
  /-- How many bytes at the end of the log a reader looks at. -/
  tailBytes : Document := .whole 2097152
  /-- The other entries of the document. -/
  others : Document.Entries := []

/-- Why a configuration is **refused**. -/
inductive ConfigFault where
  /-- The file cannot be read. -/
  | unreadable (path : String) (fault : DiskFault)
  /-- The file holds no document. -/
  | format (fault : Document.FormatFault)
  /-- The document is no mapping. -/
  | notAMapping (path : String)
  /-- The variables are no mapping. -/
  | variablesNotAMapping (path : String)
  /-- The declared names are no list. -/
  | declaredNotAList (path : String)
  /-- The value of a variable has no number, or a name has no text. -/
  | conversion (fault : ConversionFault)
  deriving DecidableEq, Repr

/-- The configuration fault in words. -/
def ConfigFault.message : ConfigFault → String
  | unreadable path fault => fault.message path
  | format (.refused message) => message
  | format (.malformed message) => message
  | notAMapping path => path ++ ": expected a mapping at top level"
  | variablesNotAMapping path => path ++ ": 'variables' must be a mapping"
  | declaredNotAList path => path ++ ": 'declared' must be a list of names"
  | conversion fault => fault.message

namespace Config

/-- The name of the configuration file in a directory. -/
def fileName : String := "rtformula.yaml"

/-- The names of the settings that have a meaning. -/
def settingNames : List String :=
  ["strict", "declared", "variables", "log_dir", "logging_fsync", "logging_tail_bytes"]

/-! ### Loading -/

/-- The variable of an entry: its key as a name and its value as a number. -/
def variableOf (entry : Document × Document) : Except ConversionFault (String × Float) := do
  let name ← entry.1.name
  let x ← entry.2.number
  return (name, x)

/-- The variables of entries; the first that cannot be converted gives the fault. -/
def variablesOf (store : Store) : Document.Entries → Except ConversionFault Store
  | [] => .ok store
  | entry :: rest =>
    match variableOf entry with
    | .ok (name, x) => variablesOf (store.put name x) rest
    | .error fault => .error fault

/-- The variables of a setting; an empty setting has none. -/
def readVariables (path : String) (setting : Document) : Except ConfigFault Store :=
  if !setting.truthy then .ok .empty
  else
    match setting with
    | .mapping entries => (variablesOf .empty entries).mapError .conversion
    | _ => .error (.variablesNotAMapping path)

/-- The declared names of a setting; without a value, there are none to check against. -/
def readDeclared (path : String) (setting : Document) : Except ConfigFault (Option (List String)) :=
  match setting with
  | .null => .ok none
  | .list items => ((items.mapM Document.name).map some).mapError .conversion
  | _ => .error (.declaredNotAList path)

/-- Whether the key is the name of a setting that has a meaning. -/
def isSetting : Document → Bool
  | .text name => settingNames.contains name
  | _ => false

/-- The configuration of the entries of a document. -/
def ofEntries (path : String) (entries : Document.Entries) : Except ConfigFault Config := do
  let setting (name : String) (default : Document) : Document := (entries.get? name).getD default
  let store ← readVariables path (setting "variables" .null)
  let declared ← readDeclared path (setting "declared" .null)
  return {
    strict := (setting "strict" (.bool false)).truthy
    declared
    store
    logDirectory := setting "log_dir" .null
    fsync := setting "logging_fsync" (.bool false)
    tailBytes := setting "logging_tail_bytes" (.whole 2097152)
    others := entries.filter fun entry => !isSetting entry.1 }

/-- The configuration of a **document**; `path` names it in faults. -/
def ofDocument (path : String) (document : Document) : Except ConfigFault Config :=
  if !document.truthy then .ok {}
  else
    match document with
    | .mapping entries => ofEntries path entries
    | _ => .error (.notAMapping path)

/-- An empty document gives the defaults. -/
theorem ofDocument_of_not_truthy {path : String} {document : Document}
    (h : document.truthy = false) : ofDocument path document = .ok {} := by
  simp [ofDocument, h]

/-- The configuration in the **bytes** of a file that has the format. -/
def ofBytes (format : Document.Format) (path : String) (bytes : List UInt8) :
    Except ConfigFault Config :=
  match format.read bytes with
  | .ok document => ofDocument path document
  | .error fault => .error (.format fault)

/-- A file without bytes gives the defaults, whatever its format is. -/
theorem ofBytes_nil (format : Document.Format) (path : String) :
    ofBytes format path [] = .ok {} := by
  rw [ofBytes, format.read_nil]
  rfl

/-- The configuration as the **entries** of a document. -/
def entries (c : Config) : Document.Entries :=
  [(.text "strict", .bool c.strict),
   (.text "declared", match c.declared with
      | some names => .list (names.map .text)
      | none => .null),
   (.text "variables", .mapping (c.store.entries.map fun entry => (.text entry.1, .real entry.2))),
   (.text "log_dir", c.logDirectory),
   (.text "logging_fsync", c.fsync),
   (.text "logging_tail_bytes", c.tailBytes)] ++ c.others

/-- **Loads** the configuration at a path: a file, or a directory with a configuration file. Without
a file there are the defaults. -/
def load {m : Type → Type} [Monad m] (format : Document.Format) (disk : Disk m) (path : Path) :
    m (Except ConfigFault Config) := do
  let file := match ← disk.kind path with
    | some .directory => path.child fileName
    | _ => path
  match ← disk.read file with
  | .error .notFound => return .ok {}
  | .error .notADirectory => return .ok {}
  | .error fault => return .error (.unreadable file.toString fault)
  | .ok bytes => return ofBytes format file.toString bytes

/-! ### The log -/

/-- Why the log of a configuration cannot be **opened**. -/
inductive LogFault where
  /-- A setting of the log cannot be converted. -/
  | conversion (fault : ConversionFault)
  /-- The directory cannot be made. -/
  | disk (fault : DiskFault)
  deriving DecidableEq, Repr

/-- The number of bytes that a reader looks at. -/
def tailBytesOf (setting : Document) : Except ConversionFault Int :=
  match setting with
  | .null => .ok 2097152
  | _ => setting.wholeNumber

/-- The **sink** that the settings describe, if there is one. A relative directory counts from the
base. -/
def sink? (c : Config) (base : Option Path) : Except ConversionFault (Option Sink) :=
  if !c.logDirectory.truthy then .ok none
  else
    match c.logDirectory with
    | .text s =>
      let target := Path.ofString s
      let directory := match base with
        | some b => b.join target
        | none => target
      (tailBytesOf c.tailBytes).map fun tailBytes =>
        some { directory, fsync := c.fsync.truthy, tailBytes }
    | _ => .error .wrongKind

/-- Opens the log that the settings describe. -/
def openLog {m : Type → Type} [Monad m] (disk : Disk m) (c : Config) (base : Option Path) :
    m (Except LogFault (Option Sink)) := do
  match c.sink? base with
  | .error fault => return .error (.conversion fault)
  | .ok none => return .ok none
  | .ok (some sink) =>
    match ← sink.opened disk with
    | .ok s => return .ok (some s)
    | .error fault => return .error (.disk fault)

end Config

end Formulary
