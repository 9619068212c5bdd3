/-!
# JSON values

The value of a document, a log record or a setting. Whole numbers are kept apart from reals, and
the fields of an object keep their order; a name occurs once.
-/

namespace Formulary

/-- A **JSON value**. -/
inductive Json where
  | null
  | bool (b : Bool)
  | whole (n : Int)
  | real (x : Float)
  | text (s : String)
  | array (items : List Json)
  | object (fields : List (String × Json))
  deriving Inhabited

namespace Json

/-- The **fields** of an object in order. -/
abbrev Fields := List (String × Json)

/-- The value of the field with the name. -/
def Fields.get? (fields : Fields) (name : String) : Option Json :=
  fields.lookup name

/-- Whether there is a field with the name. -/
def Fields.has (fields : Fields) (name : String) : Bool :=
  fields.any fun field => field.1 == name

/-- Sets a field: in its place if the name is present, and else at the end. -/
def Fields.set (name : String) (value : Json) : Fields → Fields
  | [] => [(name, value)]
  | (key, old) :: rest =>
    if key = name then (key, value) :: rest else (key, old) :: Fields.set name value rest

/-- Sets several fields, one after the other. -/
def Fields.setAll (fields more : Fields) : Fields :=
  more.foldl (fun acc field => acc.set field.1 field.2) fields

/-- The names of the fields in order. -/
def Fields.names (fields : Fields) : List String :=
  fields.map (·.1)

/-- The named field of an object. -/
def field? (name : String) : Json → Option Json
  | .object fields => Fields.get? fields name
  | _ => none

end Json

end Formulary
