import SkillBoard.Sorting
import SkillBoard.Student
import SkillBoard.Text.Blank

/-!
# The student table

The table shows the students that match a search text, sorted by one field.

* `TableView` is the search text, the sort field and the direction, with what changes them.
* `matchesSearch` is the search, `compareBy` the order, and `TableView.rows` the positions of the
  students shown; students that compare equal keep their source order in both directions.
-/

namespace SkillBoard

/-- The direction of a sort. -/
inductive Direction
  | ascending
  | descending
  deriving DecidableEq, Repr

namespace Direction

def toggled : Direction → Direction
  | ascending => descending
  | descending => ascending

/-- The direction that a text names: a word or its abbreviation, in any case, blanks around it not
counting. -/
def parse? (s : String) : Option Direction :=
  match (Text.trim s).map Char.toLower with
  | "asc" | "ascending" => some ascending
  | "desc" | "descending" => some descending
  | _ => none

/-- The mark behind the heading of the sorted column. -/
def arrow : Direction → String
  | ascending => "▲"
  | descending => "▼"

end Direction

/-! ## Search and order -/

/-- Whether a student passes a search: the name contains it, ignoring case, or the decimal form of the
class contains it literally. An empty search passes everyone. -/
def matchesSearch (s : Student) (search : String) : Bool :=
  search == "" || (Text.lowercase s.name).contains (Text.lowercase search) ||
    (toString s.grade).contains search

/-- The order of two students by a field, in a direction. -/
def compareBy (field : Field) (direction : Direction) (a b : Student) : Ordering :=
  let o := (a.entry field).compare (b.entry field)
  match direction with
  | .ascending => o
  | .descending => o.swap

/-! ## The table's settings -/

/-- What the table is asked to show. -/
structure TableView where
  search : String
  field : Field
  direction : Direction
  deriving DecidableEq, Repr

namespace TableView

/-- Everyone, the best score first. -/
def initial : TableView := ⟨"", .assessmentScore, .descending⟩

/-- Sorted by the field with a key, in the same direction; nothing for an unknown key. -/
def sortByKey? (v : TableView) (key : String) : Option TableView :=
  (Field.ofKey? key).map fun field => { v with field }

/-- A click on a heading: another column becomes the sorted one, the sorted one turns around. -/
def clickHeading (v : TableView) (field : Field) : TableView :=
  if v.field = field then { v with direction := v.direction.toggled } else { v with field }

/-- Sorted as a setting `key` or `key:direction` says; nothing for an unknown key. An unknown direction
is ignored. -/
def applySetting? (v : TableView) (setting : String) : Option TableView :=
  let cs := setting.toList
  let key := Text.trim (String.ofList (cs.takeWhile (· ≠ ':')))
  let direction := match cs.dropWhile (· ≠ ':') with
    | _ :: d => Direction.parse? (String.ofList d)
    | [] => none
  (v.sortByKey? key).map fun sorted => { sorted with direction := direction.getD v.direction }

/-- The positions of the students shown, in display order. -/
def rows (v : TableView) (students : List Student) : List Nat :=
  let shown := students.zipIdx.filter fun (s, _) => matchesSearch s v.search
  (stableSort (fun a b => compareBy v.field v.direction a.1 b.1 == .lt) shown).map (·.2)

/-- The students shown, in display order. -/
def studentsShown (v : TableView) (students : List Student) : List Student :=
  (v.rows students).filterMap fun i => students[i]?

end TableView

end SkillBoard
