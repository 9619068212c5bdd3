import Formulary.Number.Layout
import Formulary.Number.Reader
import Formulary.Table

/-!
# Tables as comma-separated text

The first line that is not empty names the columns; every later line is a row. A field may stand
between double quotes, inside which commas and line feeds belong to it and a quote is written
twice. A row may be shorter than the header: the values it lacks are missing, as are those of empty
fields. A row that is longer spoils the table.

The first hundred rows decide about the types of the columns. A column of whole numbers holds whole
numbers of 64 or, if one of them needs it, of 128 bits; with decimals among them it holds reals;
with truth values alone it holds truth values; any other column, and one without values, holds
texts. A later value that does not fit the type of its column spoils the table.

## Main results

* `unescape_plain`, `quoteField_plain`: text without quotes and other special characters stands for
  itself, in reading as in writing.
-/

namespace Formulary.Csv

/-! ### Lines and fields -/

/-- The first line of a text and what follows it. A line feed between quotes does not end a line;
`quoted` tells whether the text starts between quotes. -/
def cutLine (quoted : Bool) : List Char → List Char × List Char
  | [] => ([], [])
  | c :: rest =>
    if c = '\n' ∧ !quoted then ([], rest)
    else
      let (line, more) := cutLine (if c = '"' then !quoted else quoted) rest
      (c :: line, more)

/-- The number of lines of a text, of which `begun` tells whether one has begun. -/
def lineCount (count : Nat) (begun quoted : Bool) : List Char → Nat
  | [] => if begun then count + 1 else count
  | c :: rest =>
    if c = '\n' ∧ !quoted then lineCount (count + 1) false quoted rest
    else lineCount count true (if c = '"' then !quoted else quoted) rest

/-- Where the reader stands within a field. -/
inductive Place where
  /-- Before or in a plain field, whose quotes are plain characters. -/
  | plain
  /-- Between the quotes of a field that starts with one. -/
  | inside
  /-- Behind the quotes of a field that starts with one. -/
  | behind
  deriving DecidableEq

/-- The place after a character of a field; `atStart` tells whether it is the first one. -/
def Place.next (place : Place) (atStart : Bool) (c : Char) : Place :=
  if c = '"' then
    match place with
    | plain => if atStart then inside else plain
    | inside => behind
    | behind => inside
  else place

/-- The **records** of a text: the fields of each line, quotes included. The arguments hold the
place, the characters of the current field, the fields of the current record and the finished
records, each in reverse. An empty field at the very end of the text does not count. -/
def records (place : Place) (field : List Char) (fields : List (List Char))
    (done : List (List (List Char))) : List Char → List (List (List Char))
  | [] =>
    let last := if field.isEmpty then fields else field.reverse :: fields
    (if last.isEmpty then done else last.reverse :: done).reverse
  | c :: rest =>
    if c = ',' ∧ place ≠ .inside then records .plain [] (field.reverse :: fields) done rest
    else if c = '\n' ∧ place ≠ .inside then
      records .plain [] [] ((field.reverse :: fields).reverse :: done) rest
    else records (place.next field.isEmpty c) (c :: field) fields done rest

/-- A text without a carriage return at its end. -/
def dropReturn (cs : List Char) : List Char :=
  if cs.getLast? = some '\r' then cs.dropLast else cs

/-- Whether a field starts with a quote. -/
def isQuoted (field : List Char) : Bool :=
  field.head? == some '"'

/-- A field without the quotes around it. -/
def body (field : List Char) : List Char :=
  if isQuoted field ∧ 2 ≤ field.length then field.tail.dropLast else field

/-- The text inside quotes, with two quotes for one; a quote that stands alone is left out. -/
def unescape : List Char → List Char
  | [] => []
  | [c] => if c = '"' then [] else [c]
  | c :: d :: rest =>
    if c = '"' then if d = '"' then '"' :: unescape rest else d :: unescape rest
    else c :: unescape (d :: rest)

/-- Text without quotes stands for itself. -/
theorem unescape_plain {cs : List Char} (h : '"' ∉ cs) : unescape cs = cs := by
  fun_induction unescape cs with
  | case1 => rfl
  | case2 => simp at h
  | case3 => rfl
  | case4 => simp at h
  | case5 => simp at h
  | case6 c d rest hc ih =>
    rw [ih fun hd => h (List.mem_cons_of_mem _ hd)]

/-! ### Types of columns -/

/-- Whether a text consists of digits, of which there is at least one. -/
def isDigits (cs : List Char) : Bool :=
  !cs.isEmpty && cs.all Text.isDecimalDigit

/-- A text without a sign in front. -/
def dropSign : List Char → List Char
  | '-' :: rest => rest
  | '+' :: rest => rest
  | cs => cs

/-- Whether a text is an exponent: the letter, a sign, digits. -/
def isExponent : List Char → Bool
  | c :: rest => (c == 'e' || c == 'E') && isDigits (dropSign rest)
  | [] => false

/-- Whether a text has the form of a real number: after a sign, digits around a point, and an
exponent; without digits behind the point there has to be one before it and no exponent, and
without a point there has to be an exponent. The words `inf` and `NaN` are real numbers too, and
so are numbers with the digits of another script, although they have no value. -/
def isRealText (cs : List Char) : Bool :=
  let unsigned := dropSign cs
  let front := unsigned.takeWhile Text.isDecimalDigit
  match unsigned.dropWhile Text.isDecimalDigit with
  | '.' :: rest =>
    let fraction := rest.takeWhile Text.isDecimalDigit
    let behind := rest.dropWhile Text.isDecimalDigit
    if fraction.isEmpty then !front.isEmpty && behind.isEmpty
    else behind.isEmpty || isExponent behind
  | behind =>
    (!front.isEmpty && isExponent behind) || unsigned == ['i', 'n', 'f'] ||
      unsigned == ['N', 'a', 'N']

/-- The truth value that a text spells, in any case. -/
def truth? (cs : List Char) : Option Bool :=
  let word := String.ofList (cs.map Char.toLower)
  if word = "true" then some true else if word = "false" then some false else none

/-- The whole number that a text spells. -/
def whole? (cs : List Char) : Option Int :=
  if cs.head? = some '+' then none else Number.readPlainWhole? cs

/-- Whether a number has the given count of bits, one of which is the sign. -/
def fits (bits : Nat) (n : Int) : Bool :=
  -(Nat.pow 2 (bits - 1) : Int) ≤ n && n < (Nat.pow 2 (bits - 1) : Int)

/-- The type of a text on its own. -/
def typeOfText (cs : List Char) : ColumnType :=
  if (truth? cs).isSome then .boolean
  else if isRealText cs then .float64
  else
    match whole? cs with
    | some n => if fits 64 n then .int64 else if fits 128 n then .int128 else .string
    | none => .string

/-- The type of a column with the given texts. -/
def typeOf : List (List Char) → ColumnType
  | [] => .string
  | text :: rest => rest.foldl (fun type cs => type.join (typeOfText cs)) (typeOfText text)

/-! ### Cells -/

/-- The cell of a number that stands in a field, behind spaces and tabs. Without a text there is no
value. -/
def numberCell? (read : List Char → Option Cell) (field : List Char) : Option Cell :=
  match (body field).dropWhile fun c => c == ' ' || c == '\t' with
  | [] => some .missing
  | text => read text

/-- The cell of a whole number that has the given count of bits. -/
def wholeCell? (bits : Nat) (cs : List Char) : Option Cell :=
  match Number.readPlainWhole? cs with
  | some n => if fits bits n then some (.whole n) else none
  | none => none

/-- The cell of a truth value. -/
def truthCell? (cs : List Char) : Option Cell :=
  if cs.isEmpty then some .missing else (truth? cs).map .flag

/-- The cell of a text. Behind the quotes of a field nothing may follow. -/
def textCell? (field : List Char) : Option Cell :=
  if isQuoted field then
    if 2 ≤ field.length ∧ field.getLast? = some '"' then
      some (.text (String.ofList (unescape (body field))))
    else none
  else some (.text (String.ofList field))

/-- The cell of a field in a column of a type, unless the value does not fit the type. -/
def cell? (type : ColumnType) (field : List Char) : Option Cell :=
  if field.isEmpty then some .missing
  else
    match type with
    | .int64 => numberCell? (wholeCell? 64) field
    | .int128 => numberCell? (wholeCell? 128) field
    | .float64 => numberCell? (fun cs => (Number.readPlain? cs).map .real) field
    | .boolean => truthCell? (body field)
    | _ => textCell? field

/-! ### Reading -/

/-- The name of a column; a repeated name is marked with how often it came before. -/
def columnNames (before : List String) : List String → List String
  | [] => []
  | name :: rest =>
    let count := before.count name
    let marked := if count = 0 then name else name ++ "_duplicated_" ++ toString (count - 1)
    marked :: columnNames (name :: before) rest

/-- The names in a header line. -/
def header (line : List Char) : List String :=
  -- the comma keeps an empty last name
  let fields := (records .plain [] [] [] (dropReturn line ++ [','])).headD []
  columnNames [] (fields.map fun field => String.ofList (body field))

/-- How many rows decide about the types of the columns. -/
def decidingRows : Nat := 100

/-- The columns of the names, from the fields of the rows. -/
def columns? : List String → List (List (List Char)) → Option (List Column)
  | [], _ => some []
  | name :: rest, rows => do
    let fields := rows.map fun row => dropReturn (row.headD [])
    let type := typeOf (((fields.take decidingRows).filter (!·.isEmpty)).map body)
    let cells ← fields.mapM (cell? type)
    let more ← columns? rest (rows.map fun row => row.drop 1)
    return { name, type, cells } :: more

/-- The table of a header and the text of the rows. There is none if two columns have one name, if
quotes inside plain fields make lines and rows differ, or if a row does not fit. -/
def ofRows? (names : List String) (text : List Char) : Option Table :=
  let rows := records .plain [] [] [] text
  if names.Nodup ∧ rows.length = lineCount 0 false false text ∧
      rows.all (fun row => decide (row.length ≤ names.length)) then
    (columns? names rows).map fun columns => { columns }
  else none

/-- The text without the mark of its encoding in front. -/
def dropMark : List Char → List Char
  | '\uFEFF' :: rest => rest
  | cs => cs

/-- The text without the empty lines in front. -/
def dropEmptyLines : List Char → List Char
  | '\n' :: rest => dropEmptyLines rest
  | '\r' :: '\n' :: rest => dropEmptyLines rest
  | cs => cs

/-- **Reads** a table. There is no result for a text without lines or for rows that do not fit. -/
def read (s : String) : Option Table :=
  match dropEmptyLines (dropMark s.toList) with
  | [] => none
  | text =>
    let (line, rows) := cutLine false text
    ofRows? (header line) rows

/-! ### Writing -/

/-- Whether a field has to stand between quotes. -/
def needsQuotes (s : String) : Bool :=
  s.isEmpty || s.toList.any fun c => c = ',' || c = '"' || c = '\n' || c = '\r'

/-- A field between quotes, if it needs them. -/
def quoteField (s : String) : String :=
  if needsQuotes s then
    String.ofList ('"' :: s.toList.flatMap (fun c => if c = '"' then ['"', '"'] else [c]) ++ ['"'])
  else s

/-- A field without special characters is written as it is. -/
theorem quoteField_plain {s : String} (h : needsQuotes s = false) : quoteField s = s := by
  simp [quoteField, h]

/-- The text of a cell. -/
def cellText : Cell → String
  | .missing => ""
  | .real x => Number.compact x
  | .whole n => Number.whole n
  | .flag b => if b then "true" else "false"
  | .text s => quoteField s
  | .other text _ => quoteField text

/-- A record as a line. -/
def line (fields : List String) : String :=
  ",".intercalate fields ++ "\n"

/-- **Writes** a table. -/
def write (t : Table) : String :=
  let rows := Table.rowsOf t.rowCount (t.columns.map fun column => (column.name, column.cells))
  line (t.names.map quoteField) ++
    String.join (rows.map fun row => line (row.map fun entry => cellText entry.2))

end Formulary.Csv
