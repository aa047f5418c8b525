import SkillBoard.Source.Record

/-!
# Columnar tables

A columnar table is a list of named, typed columns of one length. Its rows are the columns zipped.
-/

namespace SkillBoard

/-- The values of a column, `none` where it has a null. Single-precision values are given as doubles
and rounded; of a column that no field can take only the nulls matter. -/
inductive ColumnValues
  | integers (values : List (Option Int))
  | singles (values : List (Option Float))
  | doubles (values : List (Option Float))
  | texts (values : List (Option String))
  | unsupported (values : List (Option Unit))

def ColumnValues.cells : ColumnValues → List Cell
  | integers vs => vs.map (present fun i => .number (Binary64.ofInt i))
  | singles vs => vs.map (present fun x => .number (Binary64.toSingle x))
  | doubles vs => vs.map (present .number)
  | texts vs => vs.map (present .text)
  | unsupported vs => vs.map (present fun _ => .unusable .unsupportedColumn)
where
  /-- A null is a cell of its own kind. -/
  present {α : Type} (f : α → Cell) : Option α → Cell
    | some v => f v
    | none => .unusable .null

/-- A column. -/
structure Column where
  name : String
  values : ColumnValues

def Column.records : List Column → List Record
  | [] => []
  | c :: rest =>
    (c :: rest).foldr
      (fun column rows => column.values.cells.zipWith (fun cell row => (column.name, cell) :: row) rows)
      (List.replicate c.values.cells.length [])

end SkillBoard
