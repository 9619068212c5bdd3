import Formulary.Disk
import Formulary.Journal.Log

/-!
# Where events go

A sink is the log in a directory. Events are recorded in the sink that is set, if any; that a
record cannot be written is no reason for a command to fail.

## Main results

* `emit_none`: without a sink, nothing is recorded.
-/

namespace Formulary

/-- A **sink**: the log of a directory, and how a reader looks at it. -/
structure Sink where
  directory : Path
  /-- Whether each record is forced onto the disk. -/
  fsync : Bool := false
  /-- The bytes at the end of the log that a reader looks at. -/
  tailBytes : Int := 2097152

namespace Sink

/-- The name of the log in its directory. -/
def fileName : String := "events.ndjson"

/-- The path of the log. -/
def file (s : Sink) : Path :=
  s.directory.child fileName

/-- Opens a sink: makes its directory. -/
def opened {m : Type → Type} [Monad m] (disk : Disk m) (s : Sink) : m (Except DiskFault Sink) := do
  match ← disk.makeDirectory s.directory with
  | .ok () => return .ok s
  | .error fault => return .error fault

/-- Writes the record of an event as it is. -/
def write {m : Type → Type} [Monad m] (disk : Disk m) (s : Sink) (e : Event) :
    m (Except DiskFault Unit) := do
  let time ← disk.now
  disk.append s.file (Log.line e time)

/-- Records an event in the sink that is set. A failure is passed over. -/
def emit {m : Type → Type} [Monad m] (disk : Disk m) (sink : Option Sink) (e : Event) : m Unit := do
  match sink with
  | none => return ()
  | some s =>
    let _ ← s.write disk e.prepared
    return ()

/-- Records several events in turn. -/
def emitAll {m : Type → Type} [Monad m] (disk : Disk m) (sink : Option Sink) (es : List Event) :
    m Unit :=
  es.forM (emit disk sink)

/-- Without a sink, nothing is recorded. -/
theorem emit_none {m : Type → Type} [Monad m] (disk : Disk m) (e : Event) :
    emit disk none e = pure () :=
  rfl

end Sink

end Formulary
