import SkillBoard.Cohort.Export
import SkillBoard.Proofs.Binary.Integers
import SkillBoard.Proofs.Source.Loading

/-!
# Columns round trip

Columns hold every entry as it is, integers as doubles: what is written is read as one record for each
student (`records_columns`), and a dataset that could be loaded is loaded again (`loadColumns_columns`).
-/

namespace SkillBoard.Export

/-- The cell that a column has of an entry. -/
def columnCell : Entry → Cell
  | .integer i => .number (Binary64.ofInt i)
  | .real x => .number x
  | .text s => .text s

theorem holds_columnCell {c : Cell} {e : Entry} (h : c.Holds e) : (columnCell e).Holds e := by
  cases h with
  | integer hx hfinite hi hlt =>
    obtain ⟨hfinite', hvalue⟩ := Binary64.toRat_ofInt hfinite hi
    exact .integer (.number _) hfinite' hvalue hlt
  | real hx hfinite => exact .real (.number _) hfinite
  | text s => exact .text s
  | plain x => exact .text _

/-- An integer of 53 bits is one that a column holds. -/
theorem holds_columnCell_integer {i : Int} (h : i.natAbs ≤ 2 ^ 53) :
    (columnCell (.integer i)).Holds (.integer i) := by
  have hlt : i.natAbs < 2 ^ 63 := by omega
  refine .integer (.number _) (Binary64.isFinite_ofInt hlt) ?_ hlt
  rw [Binary64.toRat_ofInt_eq hlt, Binary64.roundedInt_eq_self h]

/-- The record that a student is read as. -/
def columnRecord (s : Student) : Record := Field.all.map fun field => (field.key, columnCell (s.entry field))

theorem cell?_columnRecord (s : Student) (field : Field) :
    (columnRecord s).cell? field.key = some (columnCell (s.entry field)) := by
  cases field <;> rfl

theorem heldBy_columnRecord {row : Row} {s : Student} (h : s.HeldBy row) :
    s.HeldBy (columnRecord s).cell? := by
  intro field
  obtain ⟨cell, -, hholds⟩ := h field
  exact ⟨_, cell?_columnRecord s field, holds_columnCell hholds⟩

theorem cells_column (students : List Student) (field : Field) :
    (column students field).values.cells = students.map fun s => columnCell (s.entry field) := by
  have hcells {α : Type} (f : α → Cell) (value : Student → α) :
      (students.map (some ∘ value)).map (ColumnValues.cells.present f) =
        students.map fun s => f (value s) := by
    rw [List.map_map]
    rfl
  cases field <;> exact hcells _ _

theorem zipColumns_columns (students : List Student) (fields : List Field) :
    Source.zipColumns (fields.map (column students)) (List.replicate students.length []) =
      students.map fun s => fields.map fun field => (field.key, columnCell (s.entry field)) := by
  induction fields with
  | nil => exact (List.map_const' ..).symm
  | cons field fields ih =>
    rw [List.map_cons, Source.zipColumns, List.foldr_cons, ← Source.zipColumns, ih, cells_column,
      List.zipWith_map, List.zipWith_self]
    rfl

/-- What the columns are read as. -/
theorem records_columns (students : List Student) :
    Column.records (columns students) = students.map columnRecord := by
  have hheight : (column students .studentId).values.cells.length = students.length := by
    rw [cells_column, List.length_map]
  rw [← show _ = students.map columnRecord from zipColumns_columns students Field.all, ← hheight]
  rfl

/-- **Columns round trip.** -/
theorem loadColumns_columns {d : Dataset} (hheld : ∀ s ∈ d.students, ∃ row, s.HeldBy row)
    (hpositive : ∀ s ∈ d.students, 0 < s.id) (hdistinct : (d.students.map (·.id)).Nodup) :
    loadColumns (columns d.students) = .ok d := by
  rw [loadColumns, records_columns]
  refine ofRecords_eq_ok_iff.2 ⟨?_, hpositive, hdistinct⟩
  rw [List.map_map, List.forall₂_map_left_iff, List.forall₂_same]
  intro s hs
  obtain ⟨row, hrow⟩ := hheld s hs
  exact heldBy_columnRecord hrow

end SkillBoard.Export
