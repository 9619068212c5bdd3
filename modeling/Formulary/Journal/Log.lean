import Formulary.Journal.Event
import Formulary.Json.Printer
import Formulary.Json.Reader
import Formulary.Text.Blank
import Formulary.Text.Utf8

/-!
# The event log

The log is a sequence of bytes that only grows: every event adds the line of its record. Reading
looks at the last part of the log. If the log is longer than that part, what stands before the
first line feed in it counts as cut and is dropped. Lines that are no JSON are skipped.

## Reading convention

A query names the newest records first. Its limit is checked after a record was taken, so a query
answers with one record even if its limit is zero or less.

## Main results

* `append_eq`: an event adds its line and changes nothing before it.
* `length_pick_le`: a query never answers with more records than it has room for.
-/

namespace Formulary

/-- The **log**: the bytes of all lines. -/
abbrev Log := List UInt8

namespace Log

open Formulary.Text

/-- The byte that ends a line. -/
def lineFeed : UInt8 := 10

/-- The line of an event. -/
def line (e : Event) (time : String) : List UInt8 :=
  encodeUtf8 (String.ofList (e.record time).toRecord) ++ [lineFeed]

/-- The log with one more event. -/
def append (log : Log) (e : Event) (time : String) : Log :=
  log ++ line e time

/-- An event adds its line and changes nothing before it. -/
theorem append_eq (log : Log) (e : Event) (time : String) :
    append log e time = log ++ line e time :=
  rfl

/-! ### The window -/

/-- The **window** of a reader: the last bytes of the log, from the first whole line on. -/
def window (tailBytes : Int) (log : Log) : List UInt8 :=
  let size : Int := log.length
  let data := log.drop (size - tailBytes).toNat
  if tailBytes < size then (data.dropWhile (· != lineFeed)).drop 1 else data

/-- The lines of the window. -/
def lines (tailBytes : Int) (log : Log) : List (List Char) :=
  looseLines (decodeUtf8 (window tailBytes log))

/-- Why reading **fails**. -/
inductive ReadFault where
  /-- A filter meets a record that is no object. -/
  | notAnObject
  /-- A line holds a whole number with too many digits. -/
  | tooManyDigits (count : Nat)
  deriving DecidableEq, Repr

/-- The records of the lines, the latest first, in front of those already found. -/
def recordsOnto (found : List Json) : List (List Char) → Except ReadFault (List Json)
  | [] => .ok found
  | line :: rest =>
    match Json.read line with
    | .ok record => recordsOnto (record :: found) rest
    | .error .malformed => recordsOnto found rest
    | .error (.tooManyDigits count) => .error (.tooManyDigits count)

/-- The **records** in the window, the latest first. -/
def records (tailBytes : Int) (log : Log) : Except ReadFault (List Json) :=
  recordsOnto [] (lines tailBytes log)

/-! ### Queries -/

/-- A **query** for records. An empty filter counts as none. -/
structure Query where
  level : String := ""
  kind : String := ""
  limit : Int := 200

/-- The most records that a query gives. -/
def maxRecords : Int := 2000

/-- Whether the named field of a record passes a filter. -/
def passes (name filter : String) (record : Json) : Except ReadFault Bool :=
  if filter.isEmpty then .ok true
  else
    match record with
    | .object fields =>
      match Json.Fields.get? fields name with
      | some (.text s) => .ok (s == filter)
      | _ => .ok false
    | _ => .error .notAnObject

/-- Whether a record passes both filters; the second is not tried if the first refuses. -/
def Query.admits (q : Query) (record : Json) : Except ReadFault Bool :=
  match passes "level" q.level record with
  | .ok true => passes "event_type" q.kind record
  | answer => answer

/-- Picks the admitted records, one and then at most `more`. -/
def pick (q : Query) : (more : Nat) → List Json → Except ReadFault (List Json)
  | _, [] => .ok []
  | more, record :: rest =>
    match q.admits record with
    | .error fault => .error fault
    | .ok false => pick q more rest
    | .ok true =>
      match more with
      | 0 => .ok [record]
      | more + 1 => (pick q more rest).map (record :: ·)

/-- **Reads** the records that a query asks for, the latest first. -/
def read (tailBytes : Int) (q : Query) (log : Log) : Except ReadFault (List Json) :=
  match records tailBytes log with
  | .ok found => pick q ((min q.limit maxRecords).toNat - 1) found
  | .error fault => .error fault

/-- A query never answers with more records than it has room for. -/
theorem length_pick_le {q : Query} {more : Nat} {found picked : List Json}
    (h : pick q more found = .ok picked) : picked.length ≤ more + 1 := by
  induction found generalizing more picked with
  | nil =>
    simp only [pick, Except.ok.injEq] at h
    simp [← h]
  | cons record rest ih =>
    simp only [pick] at h
    split at h
    · cases h
    · exact ih h
    · split at h
      · cases h
        simp
      · rename_i more
        cases hp : pick q more rest with
        | error fault => simp [hp, Except.map] at h
        | ok tail =>
          simp only [hp, Except.map, Except.ok.injEq] at h
          have := ih hp
          simp only [← h, List.length_cons]
          omega

end Log

end Formulary
