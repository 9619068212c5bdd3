import Formulary.CommandLine.Run
import Formulary.Evaluation.Samples
import Formulary.Journal.Clock
import Std.Time.DateTime.Timestamp

/-!
# The program

The outer layer: it connects the commands with the files, the clock and the arguments of the
process, and decides nothing itself. It reads configuration files as JSON; a reader of another
format can be put in its place.
-/

namespace Formulary

/-- Runs a file operation and tells its failure apart by what stands in the way. -/
def guarded (fault : IO DiskFault) (action : IO α) : IO (Except DiskFault α) := do
  try
    return .ok (← action)
  catch _ =>
    return .error (← fault)

/-- What a path of the process leads to. -/
def kindOnDisk (p : Path) : IO (Option EntryKind) := do
  let target := (← IO.currentDir) / p.toString
  if ← target.isDir then return some .directory
  if ← target.pathExists then return some .file
  return none

/-- Why a file cannot be read or written. -/
def fileFault (p : Path) : IO DiskFault := do
  match ← kindOnDisk p with
  | some .directory => return .isADirectory
  | _ =>
    match ← kindOnDisk p.parent with
    | some .file => return .notADirectory
    | _ => return .notFound

/-- Why a directory cannot be made. -/
def directoryFault (p : Path) : IO DiskFault := do
  match ← kindOnDisk p with
  | some .file => return .alreadyExists
  | _ => return .notADirectory

/-- The disk of the process. -/
def processDisk : Disk IO where
  kind p := kindOnDisk p
  read p := guarded (fileFault p) do
    return (← IO.FS.readBinFile p.toString).toList
  makeDirectory p := guarded (directoryFault p) (IO.FS.createDirAll p.toString)
  append p bytes := guarded (fileFault p) do
    let handle ← IO.FS.Handle.mk p.toString .append
    handle.write (ByteArray.mk bytes.toArray)
  write p bytes := guarded (fileFault p) do
    IO.FS.writeBinFile p.toString (ByteArray.mk bytes.toArray)
  now := do
    let time ← Std.Time.Timestamp.now
    return timeText (time.toNanosecondsSinceUnixEpoch.val / 1000).toNat

end Formulary

open Formulary in
/-- The **program**: runs its arguments as a command line, with configuration files in JSON and a
generator of its own. -/
def main (args : List String) : IO UInt32 := do
  let seed ← IO.rand 0 0x4000000000000000
  let generator := Samples.generator (UInt64.ofNat seed)
  let ending ← CommandLine.runArguments .json generator processDisk args
  IO.print ending.output
  IO.eprint ending.errorOutput
  return UInt32.ofNat ending.exitCode
