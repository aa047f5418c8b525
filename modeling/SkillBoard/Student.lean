import SkillBoard.Decimal.Layout
import SkillBoard.Text.Lowercase

/-!
# Students

A student has ten fields: an id, a name, a class, six metrics and a persona.

* `Field` names them all, in the order of the table's columns; `Metric` names the six metrics.
* `Entry` is what stands in a field. Entries of one kind compare; names do so ignoring case, each
  character by itself.
-/

namespace SkillBoard

/-- What kind of entry a field holds. -/
inductive FieldKind
  | integer
  | real
  | text
  deriving DecidableEq, Repr

/-- The fields of a student. -/
inductive Field
  | studentId
  | name
  | grade
  | comprehension
  | attention
  | focus
  | retention
  | assessmentScore
  | engagementTime
  | persona
  deriving DecidableEq, Repr

namespace Field

/-- All fields, in column order. -/
def all : List Field :=
  [studentId, name, grade, comprehension, attention, focus, retention, assessmentScore,
    engagementTime, persona]

def key : Field → String
  | studentId => "student_id"
  | name => "name"
  | grade => "class"
  | comprehension => "comprehension"
  | attention => "attention"
  | focus => "focus"
  | retention => "retention"
  | assessmentScore => "assessment_score"
  | engagementTime => "engagement_time"
  | persona => "persona"

def ofKey? (key : String) : Option Field := all.find? (·.key == key)

/-- The column heading: the key, its first underscore a space. -/
def heading (field : Field) : String := String.ofList (field.key.toList.replace '_' ' ')

def kind : Field → FieldKind
  | studentId | grade | persona => .integer
  | name => .text
  | _ => .real

end Field

/-- The measured values of a student. -/
inductive Metric
  | comprehension
  | attention
  | focus
  | retention
  | assessmentScore
  | engagementTime
  deriving DecidableEq, Repr

namespace Metric

/-- All metrics, in column order. -/
def all : List Metric :=
  [comprehension, attention, focus, retention, assessmentScore, engagementTime]

def label : Metric → String
  | comprehension => "Comprehension"
  | attention => "Attention"
  | focus => "Focus"
  | retention => "Retention"
  | assessmentScore => "Assessment Score"
  | engagementTime => "Engagement Time"

end Metric

/-- What stands in a field. -/
inductive Entry
  | integer (value : Int)
  | real (value : Float)
  | text (value : String)

namespace Entry

/-- The order of two entries: by value, names ignoring case; entries of different kinds, and values
that do not compare, count as equal. -/
def compare : Entry → Entry → Ordering
  | integer a, integer b => Ord.compare a b
  | real a, real b => Binary64.compare a b
  | text a, text b => List.compareLex Ord.compare (Text.foldCase a) (Text.foldCase b)
  | _, _ => .eq

/-- The entry as it is shown: metrics with two places. -/
def shown : Entry → String
  | integer i => toString i
  | real x => Decimal.fixed 2 x
  | text s => s

end Entry

/-- A student. -/
structure Student where
  id : Int
  name : String
  grade : Int
  comprehension : Float
  attention : Float
  focus : Float
  retention : Float
  assessmentScore : Float
  engagementTime : Float
  persona : Int
  deriving DecidableEq

namespace Student

def metric (s : Student) : Metric → Float
  | .comprehension => s.comprehension
  | .attention => s.attention
  | .focus => s.focus
  | .retention => s.retention
  | .assessmentScore => s.assessmentScore
  | .engagementTime => s.engagementTime

def entry (s : Student) : Field → Entry
  | .studentId => .integer s.id
  | .name => .text s.name
  | .grade => .integer s.grade
  | .comprehension => .real s.comprehension
  | .attention => .real s.attention
  | .focus => .real s.focus
  | .retention => .real s.retention
  | .assessmentScore => .real s.assessmentScore
  | .engagementTime => .real s.engagementTime
  | .persona => .integer s.persona

end Student

end SkillBoard
