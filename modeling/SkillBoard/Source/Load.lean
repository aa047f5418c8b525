import SkillBoard.Csv.Reader
import SkillBoard.Json.Reader
import SkillBoard.Source.Columns
import SkillBoard.Source.Path

/-!
# Loading

Datasets from the three formats, and from a file by its extension.

* `loadJson`: a list of records, keys being the fields' keys.
* `loadCsv`: a header with the fields' keys (blanks around them do not count), one student a row.
* `loadColumns`: a columnar table with one column a field.

A fault of the format anywhere in the source comes before any fault of a record.
-/

namespace SkillBoard

/-! ## JSON -/

def Cell.ofJson : Json → Cell
  | .int i => .number (Binary64.ofInt i)
  | .real x => .number x
  | .text s => .text s
  | .null => .unusable .null
  | .bool _ => .unusable .boolean
  | .list _ => .unusable .list
  | .record _ => .unusable .record

/-- The records of a list of JSON values, from `row` on. -/
def jsonRecords (row : Nat) : List Json → Except LoadError (List Record)
  | [] => .ok []
  | .record members :: rest => do
    let others ← jsonRecords (row + 1) rest
    .ok (members.map (fun (key, v) => (key, Cell.ofJson v)) :: others)
  | _ :: _ => .error (.jsonNotRecord row)

def loadJson (w : Wording) (text : String) : Except LoadError Dataset :=
  match Json.parse? text with
  | none => .error (.jsonNotParsed (w.notJson text))
  | some (.list items) => do Dataset.ofRecords (← jsonRecords 0 items)
  | some _ => .error .jsonNotList

/-! ## CSV -/

/-- The records of the rows below a header, from `row` on; `cause` is what is said of a row that is
refused. -/
def csvRecords (cause : Nat → String) (header : List String) (row : Nat) :
    List (List Csv.Field) → Except LoadError (List Record)
  | [] => .ok []
  | fields :: rest =>
    match fields.mapM Text.Utf8.decode? with
    | none => .error (.csvRow row (cause row))
    | some cells =>
      if cells.length = header.length then do
        let others ← csvRecords cause header (row + 1) rest
        .ok (header.zip (cells.map Cell.text) :: others)
      else .error (.csvRow row (cause row))

def loadCsv (w : Wording) (bytes : List UInt8) : Except LoadError Dataset :=
  match Csv.rows bytes with
  | [] => .ok ⟨[]⟩
  | header :: rows =>
    match header.mapM Text.Utf8.decode? with
    | none => .error (.csvHeader (w.csvHeader bytes))
    | some names => do
      Dataset.ofRecords (← csvRecords (w.csvRow bytes) (names.map Text.trim) 0 rows)

/-! ## Columns -/

def loadColumns (columns : List Column) : Except LoadError Dataset :=
  Dataset.ofRecords (Column.records columns)

/-! ## Files -/

/-- What a path leads to: nothing that opens, or a file of octets. How columns are encoded in octets is
left open, so a columnar file has its columns with it. -/
inductive Content
  | unopened (cause : String)
  | octets (bytes : List UInt8)
  | columnar (columns : List Column) (bytes : List UInt8)

/-- The octets of a file, or why it does not open. -/
def Content.read : Content → Except String (List UInt8)
  | unopened cause => .error cause
  | octets bytes | columnar _ bytes => .ok bytes

def loadJsonFile (w : Wording) (content : Content) : Except LoadError Dataset :=
  match content.read with
  | .error cause => .error (.jsonNotRead cause)
  | .ok bytes =>
    match Text.Utf8.decode? bytes with
    | some text => loadJson w text
    | none => .error (.jsonNotRead (w.notText bytes))

def loadCsvFile (w : Wording) (content : Content) : Except LoadError Dataset :=
  match content.read with
  | .error cause => .error (.csvNotOpened cause)
  | .ok bytes => loadCsv w bytes

def loadColumnarFile (w : Wording) : Content → Except LoadError Dataset
  | .unopened cause => .error (.columnsNotOpened cause)
  | .octets bytes => .error (.columnsNotRead (w.notColumns bytes).1 (w.notColumns bytes).2)
  | .columnar columns _ => loadColumns columns

/-- The dataset of a file, its format given by the extension. -/
def loadFile (w : Wording) (path : Path) (content : Content) : Except LoadError Dataset :=
  match path.extension with
  | "parquet" | "pq" => loadColumnarFile w content
  | "json" => loadJsonFile w content
  | "csv" => loadCsvFile w content
  | other => .error (.unsupportedFormat other)

end SkillBoard
