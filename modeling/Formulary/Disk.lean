import Formulary.Text.Quoted
import Formulary.Text.Split
import Formulary.Text.Utf8

/-!
# Files

Paths, the file operations that commands need, and a tree of files in memory that offers the same
operations. Commands are written against the operations, so they run on a disk as well as on a
tree of files.

## Main results

* `FileTree.find?_set`: a file reads as it was written last, and writing it touches no other.
-/

namespace Formulary

/-! ### Paths -/

/-- A **path**: its parts, counted from the root or from the working directory. -/
structure Path where
  absolute : Bool
  parts : List String
  deriving DecidableEq, Repr

namespace Path

/-- The path of a text; empty parts and single dots are left out. -/
def ofString (s : String) : Path where
  absolute := s.toList.head? == some '/'
  parts := ((Text.splitAt '/' s.toList).map String.ofList).filter fun part =>
    part != "" && part != "."

/-- The text of a path. -/
def toString (p : Path) : String :=
  let body := "/".intercalate p.parts
  if p.absolute then "/" ++ body else if p.parts.isEmpty then "." else body

/-- A path below another one; an absolute path stays as it is. -/
def join (base p : Path) : Path :=
  if p.absolute then p else { base with parts := base.parts ++ p.parts }

/-- A name below a path. -/
def child (base : Path) (name : String) : Path :=
  { base with parts := base.parts ++ [name] }

/-- The directory that holds the path. -/
def parent (p : Path) : Path :=
  { p with parts := p.parts.dropLast }

end Path

/-! ### Operations -/

/-- What a path leads to. -/
inductive EntryKind where
  | file
  | directory
  deriving DecidableEq, Repr

/-- Why a file operation **fails**. -/
inductive DiskFault where
  /-- A directory on the way does not exist. -/
  | notFound
  /-- There is a file where a directory is to be made. -/
  | alreadyExists
  /-- There is a file where a directory should be on the way. -/
  | notADirectory
  /-- There is a directory where a file is wanted. -/
  | isADirectory
  deriving DecidableEq, Repr

/-- The fault of a file operation in words. -/
def DiskFault.message (path : String) : DiskFault → String
  | notFound => "[Errno 2] No such file or directory: " ++ Text.quoted path
  | alreadyExists => "[Errno 17] File exists: " ++ Text.quoted path
  | notADirectory => "[Errno 20] Not a directory: " ++ Text.quoted path
  | isADirectory => "[Errno 21] Is a directory: " ++ Text.quoted path

/-- The **disk**: the file operations that commands need. -/
structure Disk (m : Type → Type) where
  /-- What a path leads to, if anything. -/
  kind : Path → m (Option EntryKind)
  /-- The bytes of a file. -/
  read : Path → m (Except DiskFault (List UInt8))
  /-- Makes a directory and those above it, unless it exists. -/
  makeDirectory : Path → m (Except DiskFault Unit)
  /-- Adds bytes to a file and makes it if it does not exist. -/
  append : Path → List UInt8 → m (Except DiskFault Unit)
  /-- Replaces the bytes of a file and makes it if it does not exist. -/
  write : Path → List UInt8 → m (Except DiskFault Unit)
  /-- The present time. -/
  now : m String

/-- The disk for a computation that may end early. -/
def Disk.lift {m : Type → Type} [Monad m] {ε : Type} (disk : Disk m) : Disk (ExceptT ε m) where
  kind p := ExceptT.lift (disk.kind p)
  read p := ExceptT.lift (disk.read p)
  makeDirectory p := ExceptT.lift (disk.makeDirectory p)
  append p bytes := ExceptT.lift (disk.append p bytes)
  write p bytes := ExceptT.lift (disk.write p bytes)
  now := ExceptT.lift disk.now

/-! ### Files in memory -/

/-- An entry of a file tree. -/
inductive Entry where
  | file (bytes : List UInt8)
  | directory
  deriving DecidableEq

/-- What an entry is. -/
def Entry.kind : Entry → EntryKind
  | file _ => .file
  | directory => .directory

/-- A **file tree** in memory: entries by their path. The root and the working directory always
exist. -/
structure FileTree where
  entries : List (Path × Entry) := []

namespace FileTree

/-- Resolves the parts that lead one directory up; `above` are the parts before, the last first. -/
def resolveParts (above : List String) : List String → List String
  | [] => above.reverse
  | part :: rest =>
    if part = ".." then resolveParts (above.drop 1) rest else resolveParts (part :: above) rest

/-- The path without parts that lead one directory up. -/
def resolve (p : Path) : Path :=
  { p with parts := resolveParts [] p.parts }

/-- The entry at a resolved path. -/
def find? (t : FileTree) (p : Path) : Option Entry :=
  if p.parts.isEmpty then some .directory else t.entries.lookup p

/-- Sets the entry at a resolved path. -/
def set (t : FileTree) (p : Path) (entry : Entry) : FileTree where
  entries := (p, entry) :: t.entries.filter fun other => other.1 != p

/-- A file reads as it was written last, and writing it touches no other. -/
theorem find?_set (t : FileTree) (p q : Path) (entry : Entry) (h : p.parts ≠ []) :
    (t.set p entry).find? q = if q = p then some entry else t.find? q := by
  by_cases hq : q = p
  · subst hq
    simp [find?, set, h]
  · have hne : (q == p) = false := by simpa using hq
    have hfilter : (t.entries.filter fun other => other.1 != p).lookup q = t.entries.lookup q := by
      induction t.entries with
      | nil => rfl
      | cons entry rest ih =>
        obtain ⟨key, value⟩ := entry
        by_cases hk : key = p
        · subst hk
          simp [ih, List.lookup_cons, hne]
        · simp [hk, List.lookup_cons, ih]
    simp [find?, set, hq, List.lookup_cons, hne, hfilter]

/-- What a path leads to. -/
def kindAt (t : FileTree) (p : Path) : Option EntryKind :=
  (t.find? (resolve p)).map Entry.kind

/-- The bytes of a file. -/
def readAt (t : FileTree) (p : Path) : Except DiskFault (List UInt8) :=
  match t.find? (resolve p) with
  | some (.file bytes) => .ok bytes
  | some .directory => .error .isADirectory
  | none => .error .notFound

/-- Makes the directories of a path, from the outermost on; `above` is the path so far. -/
def makeAll (t : FileTree) (above : Path) : List String → Except DiskFault FileTree
  | [] => .ok t
  | part :: rest =>
    let here := above.child part
    match t.find? here with
    | some .directory => makeAll t here rest
    | some (.file _) => .error (if rest.isEmpty then .alreadyExists else .notADirectory)
    | none => makeAll (t.set here .directory) here rest

/-- Makes a directory and those above it. -/
def makeDirectoryAt (t : FileTree) (p : Path) : Except DiskFault FileTree :=
  t.makeAll { p with parts := [] } (resolve p).parts

/-- Changes the bytes of a file; a new file starts empty. -/
def modifyAt (t : FileTree) (p : Path) (change : List UInt8 → List UInt8) :
    Except DiskFault FileTree :=
  let p := resolve p
  match t.find? p, t.find? p.parent with
  | some .directory, _ => .error .isADirectory
  | some (.file bytes), _ => .ok (t.set p (.file (change bytes)))
  | none, some .directory => .ok (t.set p (.file (change [])))
  | none, some (.file _) => .error .notADirectory
  | none, none => .error .notFound

/-- The tree without a directory and all that is below it. -/
def removeAt (t : FileTree) (p : Path) : FileTree where
  entries := t.entries.filter fun entry =>
    !((resolve p).absolute == entry.1.absolute && (resolve p).parts.isPrefixOf entry.1.parts)

/-- Runs an operation that may change the tree. -/
def modifying (change : FileTree → Except DiskFault FileTree) :
    StateM FileTree (Except DiskFault Unit) := fun t =>
  match change t with
  | .ok next => (.ok (), next)
  | .error fault => (.error fault, t)

/-- The file tree as a disk at a fixed time. -/
def disk (time : String) : Disk (StateM FileTree) where
  kind p := fun t => (t.kindAt p, t)
  read p := fun t => (t.readAt p, t)
  makeDirectory p := modifying fun t => t.makeDirectoryAt p
  append p bytes := modifying fun t => t.modifyAt p (· ++ bytes)
  write p bytes := modifying fun t => t.modifyAt p fun _ => bytes
  now := fun t => (time, t)

end FileTree

end Formulary
