import SkillBoard.Grouping
import SkillBoard.Student

/-!
# Datasets

A dataset is a list of students in source order. Its personas are listed in ascending order, each
once, and counted.
-/

namespace SkillBoard

/-- The students that the board shows. -/
structure Dataset where
  students : List Student
  deriving DecidableEq

namespace Dataset

/-- The personas that occur, in ascending order. -/
def personas (d : Dataset) : List Int := ascending (d.students.map (·.persona))

/-- The personas that occur, in ascending order, with the number of their students. -/
def personaCounts (d : Dataset) : List (Int × Nat) :=
  d.students.foldl (fun counts s => fileUnder s.persona (fun n => n.getD 0 + 1) counts) []

def size (d : Dataset) : Nat := d.students.length

end Dataset

end SkillBoard
