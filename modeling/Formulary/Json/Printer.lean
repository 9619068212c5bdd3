import Formulary.Json.Basic
import Formulary.Number.Layout
import Formulary.Text.Hex
import Formulary.Text.Sorting

/-!
# Printing JSON

Three styles of one printer. A log record is one line of ASCII with its fields sorted by name; a
token listing is indented ASCII; a tree document is indented, keeps every character and writes
numbers compactly.
-/

namespace Formulary.Json

open Formulary.Text

/-- A **style** of printing. -/
structure Style where
  /-- Whether characters beyond ASCII are escaped. -/
  ascii : Bool
  /-- Whether the fields of an object are sorted by name. -/
  sorted : Bool
  /-- Whether every item has a line of its own, indented by two spaces a level. -/
  indented : Bool
  /-- The text of a real number. -/
  real : Float → String

/-- The text of a real number in a log record. -/
def realStandard (x : Float) : String :=
  if x.isNaN then "NaN"
  else if Number.isInfinite x then if x < 0 then "-Infinity" else "Infinity"
  else Number.standard x

/-- The text of a real number in a tree document, which has no infinities. -/
def realCompact (x : Float) : String :=
  if Number.isSpecial x then "null" else Number.compact x

/-- One line of ASCII, sorted by name. -/
def Style.record : Style where
  ascii := true
  sorted := true
  indented := false
  real := realStandard

/-- An indented listing in ASCII. -/
def Style.listing : Style where
  ascii := true
  sorted := false
  indented := true
  real := realStandard

/-- An indented document that keeps every character. -/
def Style.document : Style where
  ascii := false
  sorted := false
  indented := true
  real := realCompact

/-! ### Strings -/

/-- The escape of a code unit. -/
def escapeUnit (n : Nat) : List Char :=
  '\\' :: 'u' :: hexDigits 4 n

/-- One character inside a string. A character beyond the first plane is escaped as two units. -/
def escapeChar (ascii : Bool) (c : Char) : List Char :=
  if c = '"' then ['\\', '"']
  else if c = '\\' then ['\\', '\\']
  else if c = '\n' then ['\\', 'n']
  else if c = '\r' then ['\\', 'r']
  else if c = '\t' then ['\\', 't']
  else if c.toNat = 0x08 then ['\\', 'b']
  else if c.toNat = 0x0C then ['\\', 'f']
  else if c.toNat < 0x20 then escapeUnit c.toNat
  else if !ascii || c.toNat < 0x80 then [c]
  else if c.toNat < 0x10000 then escapeUnit c.toNat
  else
    let n := c.toNat - 0x10000
    escapeUnit (0xD800 + n / 0x400) ++ escapeUnit (0xDC00 + n % 0x400)

/-- A string between its quotes. -/
def writeText (ascii : Bool) (s : String) : List Char :=
  '"' :: s.toList.flatMap (escapeChar ascii) ++ ['"']

/-! ### Values -/

/-- A line break with the indentation of a level. -/
def lineBreak (depth : Nat) : List Char :=
  '\n' :: List.replicate (2 * depth) ' '

/-- The texts of the items between their brackets. -/
def Style.enclose (style : Style) (depth : Nat) (first last : Char) (items : List (List Char)) :
    List Char :=
  if items.isEmpty then [first, last]
  else if style.indented then
    first :: lineBreak (depth + 1) ++ (',' :: lineBreak (depth + 1)).intercalate items ++
      lineBreak depth ++ [last]
  else first :: [',', ' '].intercalate items ++ [last]

mutual

/-- The text of a value at a level of indentation. -/
def Style.write (style : Style) (depth : Nat) : Json → List Char
  | .null => ['n', 'u', 'l', 'l']
  | .bool true => ['t', 'r', 'u', 'e']
  | .bool false => ['f', 'a', 'l', 's', 'e']
  | .whole n => (Number.whole n).toList
  | .real x => (style.real x).toList
  | .text s => writeText style.ascii s
  | .array items => style.enclose depth '[' ']' (style.writeItems (depth + 1) items)
  | .object fields =>
    let written := style.writeFields (depth + 1) fields
    let ordered := if style.sorted then sortOn (·.1) written else written
    style.enclose depth '\x7b' '\x7d' (ordered.map (·.2))

/-- The texts of the items of an array. -/
def Style.writeItems (style : Style) (depth : Nat) : List Json → List (List Char)
  | [] => []
  | item :: rest => style.write depth item :: style.writeItems depth rest

/-- The texts of the fields of an object, each with its name. -/
def Style.writeFields (style : Style) (depth : Nat) :
    List (String × Json) → List (String × List Char)
  | [] => []
  | (name, value) :: rest =>
    (name, writeText style.ascii name ++ ':' :: ' ' :: style.write depth value) ::
      style.writeFields depth rest

end

/-- The value as one line of ASCII. -/
def toRecord (value : Json) : List Char :=
  Style.record.write 0 value

/-- The value in an indented style. -/
def print (style : Style) (value : Json) : String :=
  String.ofList (style.write 0 value)

end Formulary.Json
