import Formulary.Evaluation
import Formulary.Fault
import Formulary.Formula.Render
import Formulary.Journal.Event
import Formulary.Number.Conversion

/-!
# Tables

A table is evaluated row by row: the columns that the formula refers to are its variables. All
these columns have to be there and to be numeric, which is checked in the order of their names
before any row is evaluated. A row that lacks one of the values has no result.

## Main results

* `ColumnType.join_comm`: the order of the values does not matter for the type of their column.
* `place_names`: the result takes the place of a column of its name, or comes last.
-/

namespace Formulary

/-- The **type** of a column. The types that tables in files and results have are told apart; every
other type, such as decimals, times and lists, is known by its name and whether its values are
numbers. -/
inductive ColumnType where
  | float64
  | float32
  | int8
  | int16
  | int32
  | int64
  | int128
  | uint8
  | uint16
  | uint32
  | uint64
  | string
  | boolean
  | date
  | null
  | other (name : String) (numeric : Bool)
  deriving DecidableEq, Repr

namespace ColumnType

/-- The column types that are told apart. -/
def all : List ColumnType :=
  [float64, float32, int8, int16, int32, int64, int128, uint8, uint16, uint32, uint64, string,
   boolean, date, null]

/-- The name of a column type. -/
def name : ColumnType → String
  | float64 => "Float64"
  | float32 => "Float32"
  | int8 => "Int8"
  | int16 => "Int16"
  | int32 => "Int32"
  | int64 => "Int64"
  | int128 => "Int128"
  | uint8 => "UInt8"
  | uint16 => "UInt16"
  | uint32 => "UInt32"
  | uint64 => "UInt64"
  | string => "String"
  | boolean => "Boolean"
  | date => "Date"
  | null => "Null"
  | other name _ => name

/-- The column type with a name, if it is told apart. -/
def ofName? (name : String) : Option ColumnType :=
  all.find? (·.name == name)

/-- Whether the values are floating point numbers. -/
def isReal (t : ColumnType) : Bool :=
  t == float64 || t == float32

/-- Whether the values are numbers. -/
def isNumeric : ColumnType → Bool
  | string | boolean | date | null => false
  | other _ numeric => numeric
  | _ => true

/-- The **join** of the types of two values of one column: numbers widen, everything else becomes
text. -/
def join (a b : ColumnType) : ColumnType :=
  if a = b then a
  else
    match a, b with
    | int64, int128 | int128, int64 => int128
    | float64, int64 | float64, int128 | int64, float64 | int128, float64 => float64
    | _, _ => string

/-- The order of the values does not matter for the type of their column. -/
theorem join_comm (a b : ColumnType) : a.join b = b.join a := by
  by_cases h : a = b
  · rw [h]
  · unfold join
    rw [if_neg h, if_neg (Ne.symm h)]
    cases a <;> cases b <;> rfl

end ColumnType

/-- A **cell** of a table. A value of a type that is not told apart is known by its text and the
number that it is, if it is one. -/
inductive Cell where
  | missing
  | real (x : Float)
  | whole (n : Int)
  | flag (b : Bool)
  | text (s : String)
  | other (text : String) (number : Option Float)
  deriving Inhabited

namespace Cell

/-- Whether the cell has no value. -/
def isMissing : Cell → Bool
  | missing => true
  | _ => false

/-- The number in a cell. -/
def number? : Cell → Option Float
  | real x => some x
  | whole n => some (Number.ofWhole n)
  | other _ number => number
  | _ => none

end Cell

/-- A **column**. -/
structure Column where
  name : String
  type : ColumnType
  cells : List Cell

/-- A column with its values brought to the precision of its type. -/
def Column.ofCells (name : String) (type : ColumnType) (cells : List Cell) : Column where
  name
  type
  cells :=
    if type = .float32 then
      cells.map fun
        | .real x => .real x.toFloat32.toFloat
        | cell => cell
    else cells

/-- A **table**: columns of one length. -/
structure Table where
  columns : List Column := []

/-- Why a table cannot be evaluated. -/
inductive TableFault where
  /-- The formula is faulty: it refers to a column that is not there. -/
  | fault (f : Fault)
  /-- A column that the formula refers to is not numeric. -/
  | notNumeric (name : String) (type : ColumnType)
  /-- An aggregate of the formula never passes its limit. -/
  | endless
  deriving DecidableEq, Repr

/-- The table fault in words. -/
def TableFault.message : TableFault → String
  | fault f => f.message
  | notNumeric name type =>
    "Column " ++ Text.quoted name ++ " must be numeric, got " ++ type.name
  | endless => ""

namespace Table

/-- The names of the columns in order. -/
def names (t : Table) : List String :=
  t.columns.map (·.name)

/-- The number of rows. -/
def rowCount (t : Table) : Nat :=
  match t.columns with
  | [] => 0
  | column :: _ => column.cells.length

/-- The column with a name. -/
def column? (t : Table) (name : String) : Option Column :=
  t.columns.find? (·.name == name)

/-! ### Checking the columns -/

/-- The columns that the formula refers to, in the order of the names given. -/
def referenced (t : Table) : List String → Except TableFault (List Column)
  | [] => .ok []
  | name :: rest =>
    match t.column? name with
    | none => .error (.fault (.unknownVariable name t.names))
    | some column =>
      if column.type.isNumeric || column.type == .null then
        (t.referenced rest).map (column :: ·)
      else .error (.notNumeric name column.type)

/-! ### Rows -/

/-- The **rows** of some columns: in each row the cells with the names of their columns. -/
def rowsOf : (count : Nat) → List (String × List Cell) → List (List (String × Cell))
  | 0, _ => []
  | count + 1, columns =>
    columns.map (fun column => (column.1, column.2.headD .missing)) ::
      rowsOf count (columns.map fun column => (column.1, column.2.drop 1))

/-- The variable of a cell, unless its value is missing. -/
def boundCell? (entry : String × Cell) : Option (String × Float) :=
  entry.2.number?.map (entry.1, ·)

/-- The variables of a row, or none if a value is missing. -/
def variables? (row : List (String × Cell)) : Option Store :=
  (row.mapM boundCell?).map Store.ofList

/-- The results of the rows; samples are drawn from row to row. -/
def results (f : Formula) (mode : Mode) (samples : Samples) :
    (drawn : Nat) → List (List (String × Cell)) → Except TableFault (List Cell)
  | _, [] => .ok []
  | drawn, row :: rest =>
    match variables? row with
    | none => (results f mode samples drawn rest).map (.missing :: ·)
    | some store =>
      match f.run mode samples { store, drawn } with
      | (.ok x, w) => (results f mode samples w.drawn rest).map (.real x :: ·)
      | (.error .endless, _) => .error .endless
      | (.error (.unbound name available), _) =>
        .error (.fault (.unknownVariable name available))

/-! ### Results -/

/-- The columns with one more, which takes the place of a column of its name or comes last. -/
def place (column : Column) : List Column → List Column
  | [] => [column]
  | other :: rest => if other.name = column.name then column :: rest else other :: place column rest

/-- The result takes the place of a column of its name, or comes last. -/
theorem place_names (column : Column) (columns : List Column) :
    (place column columns).map (·.name) =
      if column.name ∈ columns.map (·.name) then columns.map (·.name)
      else columns.map (·.name) ++ [column.name] := by
  induction columns with
  | nil => rfl
  | cons other rest ih =>
    by_cases h : other.name = column.name
    · simp [place, h]
    · have h' : column.name ≠ other.name := fun e => h e.symm
      simp only [place, h, if_false, List.map_cons, ih, List.mem_cons, h', false_or]
      split <;> simp

/-- **Evaluates** a formula on every row. The result column has the given name. -/
def evaluate (t : Table) (f : Formula) (output : String) (mode : Mode) (samples : Samples) :
    Except TableFault Table :=
  match t.referenced f.references with
  | .error fault => .error fault
  | .ok columns =>
    let rows := rowsOf t.rowCount (columns.map fun column => (column.name, column.cells))
    (results f mode samples 0 rows).map fun cells =>
      { columns := place { name := output, type := .float64, cells } t.columns }

/-- The event of a table that was evaluated. -/
def evaluatedEvent (f : Formula) (mode : Mode) (output : String) (rows : Nat) : Event :=
  .ofFormula .tableEvaluated .info ("Evaluated " ++ toString rows ++ " rows") f.render
    (some mode.isStrict) none [("rows", .whole rows), ("output", .text output)]

end Table

end Formulary
