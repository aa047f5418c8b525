import SkillBoard.Dataset
import SkillBoard.Decimal.Reader
import SkillBoard.Source.Error
import SkillBoard.Text.Blank

/-!
# Source records

Every format is read into loosely typed records first; one set of rules makes students of them.

* `Cell` is a source cell: a number, a text (which may stand for a number), or neither.
* `Record.student` coerces the fields in the order of the schema and stops at the first fault.
* `Dataset.ofRecords` does so row by row, and refuses an id that an earlier row has.
-/

namespace SkillBoard

/-- A source cell. -/
inductive Cell
  | number (value : Float)
  | text (value : String)
  | unusable (kind : CellKind)

/-- A source record: cells under their keys. Where a key occurs twice, the last cell counts. -/
abbrev Record := List (String × Cell)

namespace Record

def cell? (r : Record) (key : String) : Option Cell := r.reverse.lookup key

/-- The value of a numeric field, before it is asked to be finite. -/
def anyNumber (c : Option Cell) : Except Fault Float :=
  match c with
  | none => .error .missing
  | some (.number x) => .ok x
  | some (.text s) =>
    let s := Text.trim s
    if s = "" then .error .empty
    else
      match float? s with
      | some x => .ok x
      | none => .error (.notNumber s)
  | some (.unusable kind) => .error (.kindForNumber kind)

def number (c : Option Cell) : Except Fault Float := do
  let x ← anyNumber c
  if x.isFinite then .ok x else .error (.notFinite x)

/-- The value of an integer field: a whole number of less than 64 bits. -/
def integer (c : Option Cell) : Except Fault Int := do
  let x ← number c
  if Binary64.isWhole x ∧ (Binary64.truncate x).natAbs < 1 <<< 63 then .ok (Binary64.truncate x)
  else .error (.notInteger x)

def positive (c : Option Cell) : Except Fault Int := do
  let i ← integer c
  if 0 < i then .ok i else .error (.notPositive i)

/-- The value of a text field: a text as it is, or the plain form of a number. -/
def text (c : Option Cell) : Except Fault String :=
  match c with
  | none => .error .missing
  | some (.text s) => .ok s
  | some (.number x) => .ok (Decimal.Layout.plain.render x)
  | some (.unusable kind) => .error (.kindForText kind)

/-- A field of the record, read by a rule; its fault names the field. -/
def get (r : Record) (field : Field) (rule : Option Cell → Except Fault α) :
    Except (Field × Fault) α :=
  (rule (r.cell? field.key)).mapError (field, ·)

/-- The student of a record, or its first fault. -/
def student (r : Record) : Except (Field × Fault) Student := do
  let id ← r.get .studentId positive
  let name ← r.get .name text
  let grade ← r.get .grade integer
  let comprehension ← r.get .comprehension number
  let attention ← r.get .attention number
  let focus ← r.get .focus number
  let retention ← r.get .retention number
  let assessmentScore ← r.get .assessmentScore number
  let engagementTime ← r.get .engagementTime number
  let persona ← r.get .persona integer
  .ok { id, name, grade, comprehension, attention, focus, retention, assessmentScore,
        engagementTime, persona }

end Record

/-- The students of the records from `row` on, given the ids of the rows before. -/
def readRecords (row : Nat) (ids : List Int) : List Record → Except LoadError (List Student)
  | [] => .ok []
  | r :: rest => do
    let s ← r.student.mapError fun (field, fault) => .malformed row field fault
    if s.id ∈ ids then .error (.malformed row .studentId (.duplicate s.id))
    else
      let others ← readRecords (row + 1) (s.id :: ids) rest
      .ok (s :: others)

/-- The dataset of a list of records, or the first fault. -/
def Dataset.ofRecords (records : List Record) : Except LoadError Dataset :=
  (readRecords 0 [] records).map Dataset.mk

end SkillBoard
