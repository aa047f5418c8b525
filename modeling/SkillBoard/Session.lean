import SkillBoard.Chart
import SkillBoard.Dataset
import SkillBoard.Source.Error
import SkillBoard.Statistics
import SkillBoard.Table

/-!
# Sessions

A `Session` is all that the board knows between two inputs: the dataset, what is computed from it once,
the table's settings with the rows they give, the selected student and a message. An `Operation` is one
input; `Session.run` performs a list of them.
-/

namespace SkillBoard

/-- The state of the board. Statistics, colours and visible rows are kept, not recomputed. -/
structure Session where
  dataset : Option Dataset
  overview : Overview
  correlations : List (Metric × Float)
  table : TableView
  /-- Positions of the rows shown, in display order. -/
  visible : List Nat
  /-- Position of the student whose profile is shown. -/
  selected : Nat
  colours : PersonaColours
  status : Option String
  deriving DecidableEq

namespace Session

/-- No dataset, no message. -/
def empty : Session where
  dataset := none
  overview := Overview.of []
  correlations := []
  table := TableView.initial
  visible := []
  selected := 0
  colours := PersonaColours.of []
  status := none

/-- All students, none without a dataset. -/
def students (s : Session) : List Student := (s.dataset.map (·.students)).getD []

def profile? (s : Session) : Option Student := s.students[s.selected]?

/-- The students of the rows shown, in display order, with their positions. -/
def visibleStudents (s : Session) : List (Nat × Student) :=
  s.visible.filterMap fun i => s.students[i]?.map (i, ·)

/-! ## Operations -/

def rederive (s : Session) : Session := { s with visible := s.table.rows s.students }

def showTable (s : Session) (table : TableView) : Session := rederive { s with table }

/-- A dataset takes the place of the old one. The table's settings stay, the selection and the message
do not. -/
def load (s : Session) (d : Dataset) : Session :=
  rederive
    { s with
      dataset := some d
      overview := Overview.of d.students
      correlations := scoreCorrelations d.students
      colours := PersonaColours.of d.personas
      selected := 0
      status := none }

def search (s : Session) (text : String) : Session := s.showTable { s.table with search := text }

/-- Sorted by the field with a key; an unknown key is ignored. -/
def sortByKey (s : Session) (key : String) : Session :=
  match s.table.sortByKey? key with
  | some table => s.showTable table
  | none => s

/-- A sort setting `key` or `key:direction`; one with an unknown key is ignored. -/
def applySetting (s : Session) (setting : String) : Session :=
  match s.table.applySetting? setting with
  | some table => s.showTable table
  | none => s

def clickHeading (s : Session) (field : Field) : Session :=
  s.showTable (s.table.clickHeading field)

/-- Another student's profile; a position without a student is ignored. -/
def select (s : Session) (i : Nat) : Session :=
  if i < s.students.length then { s with selected := i } else s

def ofDataset (d : Dataset) : Session := empty.load d

/-- A session after a load that failed, for what a chain of messages says: no students, and a message. -/
def ofError (chain : String) : Session :=
  { empty with status := some ("Failed to load data: " ++ chain) }

def ofResult : Except LoadError Dataset → Session
  | .ok d => ofDataset d
  | .error e => ofError e.chain

end Session

/-- An input to the board. -/
inductive Operation
  | load (d : Dataset)
  | search (text : String)
  | sortByKey (key : String)
  | applySetting (setting : String)
  | clickHeading (field : Field)
  | select (i : Nat)
  | rederive

namespace Session

def perform (s : Session) : Operation → Session
  | .load d => s.load d
  | .search text => s.search text
  | .sortByKey key => s.sortByKey key
  | .applySetting setting => s.applySetting setting
  | .clickHeading field => s.clickHeading field
  | .select i => s.select i
  | .rederive => s.rederive

/-- A list of operations, one after the other. -/
def run (s : Session) (ops : List Operation) : Session := ops.foldl perform s

end Session

end SkillBoard
