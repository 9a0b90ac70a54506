import TypeSketch.Shape.Basic
import TypeSketch.Text.Case

/-!
# Tables and enum types

A struct is a table with a column for each field, and an enum is a type of labels.
-/

namespace TypeSketch.Sql

/-- The shape has no place in a database, for a reason. -/
def unsupported {α : Type} (s : Shape) (reason : String) : Except Error α :=
  .error (.emit ("`" ++ s.name ++ "` as sql") reason)

/-- The column type of a floating number. -/
def floatingType (s : Shape) : Except Error String :=
  match s.int? Trait.bitSize with
  | some 32 => .ok "float"
  | some 64 => .ok "double precision"
  | _ => unsupported s "floats must be 32 or 64 bits"

/-- The column type of a whole number. -/
def integerType (s : Shape) : Except Error String :=
  match s.int? Trait.bitSize with
  | some bits => .ok (if bits < 32 then "smallint" else if bits = 32 then "int" else "bigint")
  | none => unsupported s "integer without a bit size"

/-- The column type of a shape. -/
def columnType (s : Shape) : Except Error String :=
  if s.flag Trait.floating then floatingType s
  else if s.has Trait.tsUnit then .ok "timestamp without time zone"
  else if s.flag Trait.integer then integerType s
  else if s.flag Trait.string || s.flag Trait.null then .ok "text"
  else if s.flag Trait.bool then .ok "bool"
  else if s.flag Trait.enum then .ok (if s.flag Trait.simpleEnum then "text" else "jsonb")
  else if s.flag Trait.struct || s.flag Trait.vector || s.flag Trait.tuple || s.flag Trait.map then
    .ok "jsonb"
  else unsupported s "no column type"

/-- The column of a field entry. -/
def column (f : Shape) : Except Error String := do
  let either (mark : Field) : Bool := f.flag mark || f.content.flag mark
  return Text.snakeCase f.label ++ " " ++ (← columnType f.content) ++
    (if either Trait.primary then " primary key" else "") ++
    (if either Trait.nullable then "" else " not null")

/-- The columns of a struct. -/
def columnsOf (s : Shape) : Except Error (List String) :=
  if s.flag Trait.struct then s.fields.mapM column else unsupported s "only structs map to tables"

/-- The columns of a struct, one on a line. -/
def columns (s : Shape) : Except Error String := return Text.joinWith ",\n" (← columnsOf s)

/-- The table of a struct. -/
def createTable (s : Shape) : Except Error String := do
  let columns := (← columnsOf s).map fun c => "    " ++ c
  return "CREATE TABLE IF NOT EXISTS " ++ Text.snakeCase s.name ++ " (\n" ++
    Text.joinWith ",\n" columns ++ "\n);\n"

/-- A name as a literal: a quotation mark inside it is doubled. -/
def label (name : String) : String :=
  "'" ++ String.ofList (name.toList.flatMap fun c => if c == '\'' then [c, c] else [c]) ++ "'"

/-- Names as a list of literals. -/
def labels (names : List String) : String := Text.joinWith ", " (names.map label)

/-- The type of an enum, whose labels are the primary names of the variants. -/
def createType (s : Shape) : Except Error String :=
  if s.flag Trait.enum then
    .ok ("CREATE TYPE " ++ Text.snakeCase s.name ++ " AS ENUM (" ++
      labels (s.variants.map (·.name)) ++ ");\n")
  else unsupported s "only enums map to enum types"

end TypeSketch.Sql
