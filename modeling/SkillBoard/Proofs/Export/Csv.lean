import SkillBoard.Cohort.Export
import SkillBoard.Proofs.Csv
import SkillBoard.Proofs.Decimal.Text
import SkillBoard.Proofs.Source.Loading

/-!
# CSV round trip

A loaded dataset that is written as CSV is loaded again as it was.

* `holds_csvText`: the text of an entry holds the entry, whatever cell it was loaded from.
* `loadCsv_csv`: the written file gives the dataset back.
-/

namespace SkillBoard

/-! ## Entries -/

theorem denotes_render {l : Decimal.Layout} (hplus : l.exponentPlus = "" ∨ l.exponentPlus = "+")
    {x : Float} (hx : x.isFinite = true) : (Cell.text (l.render x)).Denotes x := by
  refine .text ?_
  rw [Decimal.Layout.trim_render hplus hx, Decimal.Layout.float?_render hplus hx]

theorem holds_toString {x : Float} {i : Int} (hx : x.isFinite = true) (hi : Binary64.toRat x = i)
    (hlt : i.natAbs < 2 ^ 63) : (Cell.text (toString i)).Holds (.integer i) := by
  obtain ⟨y, hread, hy, hvalue⟩ := float?_toString hx hi
  refine .integer (.text ?_) hy hvalue hlt
  rw [trim_toString, hread]

theorem holds_csvText {c : Cell} {e : Entry} (h : c.Holds e) : (Cell.text (Export.csvText e)).Holds e := by
  cases h with
  | integer hx hfinite hi hlt => exact holds_toString hfinite hi hlt
  | real hx hfinite => exact .real (denotes_render (.inl rfl) hfinite) hfinite
  | text s => exact .text s
  | plain x => exact .text _

/-! ## Rows -/

namespace Export

def header : List String := Field.all.map Field.key

/-- The texts of a student's row. -/
def csvTexts (s : Student) : List String := Field.all.map fun field => csvText (s.entry field)

/-- The record that a student's row is read as. -/
def csvRecord (s : Student) : Record := header.zip ((csvTexts s).map Cell.text)

theorem cell?_csvRecord (s : Student) (field : Field) :
    (csvRecord s).cell? field.key = some (.text (csvText (s.entry field))) := by
  cases field <;> rfl

theorem heldBy_csvRecord {row : Row} {s : Student} (h : s.HeldBy row) :
    s.HeldBy (csvRecord s).cell? := by
  intro field
  obtain ⟨cell, -, hholds⟩ := h field
  exact ⟨_, cell?_csvRecord s field, holds_csvText hholds⟩

theorem length_csvTexts (s : Student) : (csvTexts s).length = header.length := by
  rw [csvTexts, header, List.length_map, List.length_map]

theorem trim_header : header.map Text.trim = header := by decide +kernel

theorem csvRows_eq {students : List Student} (hne : students ≠ []) :
    csvRows students = header :: students.map csvTexts := by
  unfold csvRows
  rw [if_neg (by simpa using hne)]
  rfl

/-- The header begins with a letter, so the file does not begin as a mark does. -/
theorem head?_row_header : (Csv.row (header.map Text.Utf8.encode)).head? = some 0x73 := by
  decide +kernel

theorem rows_csv {students : List Student} (hne : students ≠ []) :
    Csv.rows (csv students) = header.map Text.Utf8.encode ::
      students.map fun s => (csvTexts s).map Text.Utf8.encode := by
  have hrows : (csvRows students).map (fun row => row.map Text.Utf8.encode) =
      header.map Text.Utf8.encode :: students.map fun s => (csvTexts s).map Text.Utf8.encode := by
    rw [csvRows_eq hne, List.map_cons, List.map_map]
    rfl
  have htwo : 2 ≤ header.length := by decide
  unfold csv
  rw [hrows]
  refine Csv.rows_write (List.forall_mem_cons.2 ⟨?_, ?_⟩) ?_
  · rwa [List.length_map]
  · intro row hrow
    obtain ⟨s, -, rfl⟩ := List.mem_map.1 hrow
    rwa [List.length_map, length_csvTexts]
  · rw [Csv.write, List.flatMap_cons, List.head?_append, head?_row_header, Option.some_or]
    decide

theorem loadCsv_of_rows {w : Wording} {students : List Student} {bytes : List UInt8}
    (h : Csv.rows bytes = header.map Text.Utf8.encode ::
      students.map fun s => (csvTexts s).map Text.Utf8.encode) :
    loadCsv w bytes = Dataset.ofRecords (students.map csvRecord) := by
  have hlength : ∀ texts ∈ students.map csvTexts, texts.length = header.length := by
    intro texts htexts
    obtain ⟨s, -, rfl⟩ := List.mem_map.1 htexts
    exact length_csvTexts s
  have htable : students.map (fun s => (csvTexts s).map Text.Utf8.encode) =
      (students.map csvTexts).map fun texts => texts.map Text.Utf8.encode := by
    rw [List.map_map]
    rfl
  rw [htable] at h
  rw [loadCsv_encode h trim_header hlength, List.map_map]
  rfl

/-- What the rows are read as, if each student was held by some row. -/
theorem ofRecords_csvRecord {d : Dataset} (hheld : ∀ s ∈ d.students, ∃ row, s.HeldBy row)
    (hpositive : ∀ s ∈ d.students, 0 < s.id) (hdistinct : (d.students.map (·.id)).Nodup) :
    Dataset.ofRecords (d.students.map csvRecord) = .ok d := by
  refine ofRecords_eq_ok_iff.2 ⟨?_, hpositive, hdistinct⟩
  rw [List.map_map, List.forall₂_map_left_iff, List.forall₂_same]
  intro s hs
  obtain ⟨row, hrow⟩ := hheld s hs
  exact heldBy_csvRecord hrow

/-- **CSV round trip**: every loaded dataset is loaded again from the file that is written of it, and no
students leave an empty file. -/
theorem loadCsv_csv (w : Wording) : (∀ d : Dataset, Loaded d → loadCsv w (csv d.students) = .ok d) ∧
    csv [] = [] ∧ loadCsv w [] = .ok ⟨[]⟩ := by
  refine ⟨fun d hd => ?_, rfl, rfl⟩
  obtain ⟨hheld, hpositive, hdistinct⟩ := hd.heldBy
  by_cases hne : d.students = []
  · obtain ⟨students⟩ := d
    obtain rfl : students = [] := hne
    rfl
  · rw [loadCsv_of_rows (rows_csv hne), ofRecords_csvRecord hheld hpositive hdistinct]

/-- Names with all that is quoted, and the extremes of the metrics. -/
def awkwardStudents : List Student :=
  [⟨9223372036854774784, "a,\"b\"\r\n ", -5, -0.0, 1e308, 5e-324, 0.1, 1, 1, 0⟩,
    ⟨1, "", 0, 2, 3, 4, 5, 6, 7, -9223372036854774784⟩]

theorem loadCsv_csv_awkwardStudents :
    loadColumns (columns awkwardStudents) = .ok ⟨awkwardStudents⟩ ∧
      loadCsv .plain (csv awkwardStudents) = .ok ⟨awkwardStudents⟩ := by
  have h : (Source.columns (columns awkwardStudents)).load .plain = .ok ⟨awkwardStudents⟩ := by
    decide +kernel
  exact ⟨h, (loadCsv_csv .plain).1 _ (.source h)⟩

end Export

end SkillBoard
