import SkillBoard.Cohort.Draw
import SkillBoard.Cohort.Personas
import SkillBoard.Csv.Printer
import SkillBoard.Json.Printer
import SkillBoard.Source.Load

/-!
# Writing students out

The three forms in which a list of students is written, each of which the board loads: JSON, CSV, and a
columnar table. `Export.files` and `Export.report` are what a run of the generator leaves and says.
-/

namespace SkillBoard.Export

/-! ## JSON -/

/-- A number as JSON; `asText` puts it in quotes. -/
def jsonNumber (asText : Bool) (v : Json) : Json := if asText then .text v.render else v

/-- A student as a JSON record, keys in the order of the alphabet. A loosely typed row has some of its
numbers as texts. -/
def jsonStudent (loose : Bool) (s : Student) : Json :=
  let real (field : Field) (x : Float) (asText : Bool) := (field.key, jsonNumber asText (.ofFloat x))
  let int (field : Field) (i : Int) (asText : Bool) := (field.key, jsonNumber asText (.int i))
  .record
    [real .assessmentScore s.assessmentScore false,
      real .attention s.attention false,
      int .grade s.grade loose,
      real .comprehension s.comprehension loose,
      real .engagementTime s.engagementTime false,
      real .focus s.focus loose,
      (Field.name.key, .text s.name),
      int .persona s.persona false,
      real .retention s.retention false,
      int .studentId s.id false]

/-- The JSON text of a list of students; every third row, from the first on, is loosely typed. -/
def json (students : List Student) : String :=
  (Json.list (students.zipIdx.map fun (s, i) => jsonStudent (i % 3 == 0) s)).render

/-! ## CSV -/

def csvText : Entry → String
  | .integer i => toString i
  | .real x => Decimal.Layout.csv.render x
  | .text s => s

/-- The rows of a CSV file, its header first; there is no header without students. -/
def csvRows (students : List Student) : List (List String) :=
  if students.isEmpty then []
  else
    Field.all.map Field.key ::
      students.map fun s => Field.all.map fun field => csvText (s.entry field)

def csv (students : List Student) : List UInt8 :=
  Csv.write ((csvRows students).map fun row => row.map Text.Utf8.encode)

/-! ## Columns -/

def column (students : List Student) (field : Field) : Column :=
  let integers (value : Student → Int) := ColumnValues.integers (students.map (some ∘ value))
  let doubles (value : Student → Float) := ColumnValues.doubles (students.map (some ∘ value))
  { name := field.key
    values := match field with
      | .studentId => integers (·.id)
      | .name => .texts (students.map fun s => some s.name)
      | .grade => integers (·.grade)
      | .comprehension => doubles (·.comprehension)
      | .attention => doubles (·.attention)
      | .focus => doubles (·.focus)
      | .retention => doubles (·.retention)
      | .assessmentScore => doubles (·.assessmentScore)
      | .engagementTime => doubles (·.engagementTime)
      | .persona => integers (·.persona) }

def columns (students : List Student) : List Column := Field.all.map (column students)

/-! ## A run of the generator -/

/-- The students that a seed gives, in their personas. -/
def cohort (f : Analysis) (seed : UInt64) : List Student :=
  Cohort.assignPersonas (Cohort.draw f seed)

/-- The name of the files, without extension. -/
def fileStem : String := "students_processed"

def seed : UInt64 := 42

def counts (students : List Student) : List Nat :=
  (List.range Cohort.personaCount).map fun (p : Nat) => students.countP fun s => s.persona == (p : Int)

def report (students : List Student) : String :=
  "Wrote " ++ toString students.length ++ " students (personas [" ++
    String.intercalate ", " ((counts students).map toString) ++ "]) to " ++ fileStem ++
    ".\x7bparquet,json,csv\x7d\n"

/-- The files of a run, in the order of their names; `encode` is how columns are encoded in octets. -/
def files (encode : List Column → List UInt8) (students : List Student) : List (String × Content) :=
  [(fileStem ++ ".csv", .octets (csv students)),
    (fileStem ++ ".json", .octets (Text.Utf8.encode (json students))),
    (fileStem ++ ".parquet", .columnar (columns students) (encode (columns students)))]

end SkillBoard.Export
