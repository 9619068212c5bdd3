import Formulary.Json.Reader
import Formulary.Number.Conversion
import Formulary.Text.Blank
import Formulary.Text.Utf8

/-!
# Documents

The settings of a program stand in a file, and what the file holds is a document: lists and
mappings of plain values, where the keys of a mapping are values like any others. Besides the plain
values, a format may have kinds of its own, such as dates, binary data and sets. These are left as
they are here, with what their conversions give (`Foreign`).

The syntax of files is not modelled. A **format** is a reader of files that is given from outside,
and everything that loads a document takes one. `Format.json` is the one that the program is run
with.

## Texts of values

A value stands for a text where a name is wanted. A text is its own text, and inside a list or
mapping it is quoted. A whole number of more than 4300 digits has no text, and neither has what
holds one.

## Main results

* `display?_text`: a text stands for itself.
-/

namespace Formulary

/-- A **foreign** value: one of a kind that only its format knows, or one that holds itself. -/
structure Foreign where
  /-- Whether it holds a whole number that has too many digits to be written. -/
  overlong : Bool
  /-- The text that it stands for. -/
  shown : String
  /-- Its text inside a list or mapping. -/
  inner : String
  /-- Whether it counts as true. -/
  truthy : Bool
  /-- What converting it to a number gives. -/
  number : Except ConversionFault Float
  /-- What converting it to a whole number gives. -/
  whole : Except ConversionFault Int

/-- A **document**, and every value in it. -/
inductive Document where
  | null
  | bool (b : Bool)
  | whole (n : Int)
  | real (x : Float)
  | text (s : String)
  | list (items : List Document)
  | mapping (entries : List (Document × Document))
  | foreign (v : Foreign)

namespace Document

/-- Whether the value counts as true: null, false, zero and everything empty do not. -/
def truthy : Document → Bool
  | .null => false
  | .bool b => b
  | .whole n => n != 0
  | .real x => !(x == 0)
  | .text s => !s.isEmpty
  | .list items => !items.isEmpty
  | .mapping entries => !entries.isEmpty
  | .foreign v => v.truthy

/-! ### Texts -/

/-- The text of a whole number, unless it has too many digits. -/
def wholeText? (n : Int) : Option String :=
  if Number.maxWholeDigits < (Number.digitsOf n.natAbs).length then none
  else some (Number.whole n)

mutual

/-- The text of a value inside a list or mapping. -/
def inner? : Document → Option String
  | .null => some "None"
  | .bool true => some "True"
  | .bool false => some "False"
  | .whole n => wholeText? n
  | .real x => some (Number.standard x)
  | .text s => some (Text.quoted s)
  | .list items => do
    let texts ← innerItems? items
    return "[" ++ ", ".intercalate texts ++ "]"
  | .mapping entries => do
    let texts ← innerEntries? entries
    return "\x7b" ++ ", ".intercalate texts ++ "\x7d"
  | .foreign v => if v.overlong then none else some v.inner

/-- The texts of the items of a list. -/
def innerItems? : List Document → Option (List String)
  | [] => some []
  | item :: rest => do
    let text ← inner? item
    let texts ← innerItems? rest
    return text :: texts

/-- The texts of the entries of a mapping. -/
def innerEntries? : List (Document × Document) → Option (List String)
  | [] => some []
  | (key, value) :: rest => do
    let key ← inner? key
    let value ← inner? value
    let texts ← innerEntries? rest
    return (key ++ ": " ++ value) :: texts

end

/-- The text that a value stands for. -/
def display? : Document → Option String
  | .text s => some s
  | .foreign v => if v.overlong then none else some v.shown
  | value => inner? value

/-- A text stands for itself. -/
@[simp] theorem display?_text (s : String) : display? (.text s) = some s :=
  rfl

/-- The **name** that a value stands for. -/
def name (d : Document) : Except ConversionFault String :=
  match d.display? with
  | some s => .ok s
  | none => .error .overlong

/-! ### Numbers -/

/-- The **number** of a value: numbers, the texts of numbers, and truth values have one. -/
def number : Document → Except ConversionFault Float
  | .bool b => .ok (if b then 1.0 else 0.0)
  | .whole n =>
    match Number.ofWhole? n with
    | some x => .ok x
    | none => .error .outOfRange
  | .real x => .ok x
  | .text s => Number.parse s
  | .foreign v => v.number
  | _ => .error .wrongKind

/-- The **whole number** of a value. -/
def wholeNumber : Document → Except ConversionFault Int
  | .bool b => .ok (if b then 1 else 0)
  | .whole n => .ok n
  | .real x => Number.toWhole x
  | .text s => Number.parseWhole s
  | .foreign v => v.whole
  | _ => .error .wrongKind

/-! ### Entries -/

/-- The **entries** of a mapping in order. -/
abbrev Entries := List (Document × Document)

namespace Entries

/-- An entry as a field, if its key is a text. -/
def field? : Document × Document → Option (String × Document)
  | (.text key, value) => some (key, value)
  | _ => none

/-- The **fields**: the entries whose key is a text. -/
def fields (entries : Entries) : List (String × Document) :=
  entries.filterMap field?

/-- An entry whose key is a text is a field. -/
@[simp] theorem fields_cons_text (name : String) (value : Document) (rest : Entries) :
    fields ((.text name, value) :: rest) = (name, value) :: rest.fields :=
  rfl

/-- The value of the field with the name. -/
def get? (entries : Entries) (name : String) : Option Document :=
  entries.fields.lookup name

end Entries

/-! ### Formats -/

/-- Why a file holds **no document**. -/
inductive FormatFault where
  /-- Something in the file is refused with a message. -/
  | refused (message : String)
  /-- The file does not have the format. -/
  | malformed (message : String)
  deriving DecidableEq, Repr

/-- A **format** of files. A file without bytes holds null. -/
structure Format where
  /-- The document in the bytes of a file. -/
  read : List UInt8 → Except FormatFault Document
  /-- A file without bytes holds null. -/
  read_nil : read [] = .ok .null

mutual

/-- A JSON value as a document. -/
def ofJson : Json → Document
  | .null => .null
  | .bool b => .bool b
  | .whole n => .whole n
  | .real x => .real x
  | .text s => .text s
  | .array items => .list (ofItems items)
  | .object fields => .mapping (ofFields fields)

/-- The items of a JSON array as documents. -/
def ofItems : List Json → List Document
  | [] => []
  | item :: rest => ofJson item :: ofItems rest

/-- The fields of a JSON object as entries. -/
def ofFields : List (String × Json) → Entries
  | [] => []
  | (name, value) :: rest => (.text name, ofJson value) :: ofFields rest

end

/-- The document in a JSON text; a blank text holds null. -/
def ofText (text : List Char) : Except FormatFault Document :=
  if text.all Text.isBlank then .ok .null
  else
    match Json.read text with
    | .ok value => .ok (ofJson value)
    | .error (.tooManyDigits count) =>
      .error (.refused (ConversionFault.tooManyDigits count).message)
    | .error .malformed => .error (.malformed "expected a JSON value")

/-- The format of **JSON files**. -/
def Format.json : Format where
  read bytes := ofText (Text.decodeUtf8 bytes)
  read_nil := rfl

end Document

end Formulary
