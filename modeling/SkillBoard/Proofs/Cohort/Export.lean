import SkillBoard.Proofs.Cohort.Draw
import SkillBoard.Proofs.Cohort.Personas
import SkillBoard.Proofs.Export.Columns

/-!
# A cohort is loaded from all its files

Whatever the seed, the students of a cohort have ids in order, classes, metrics and personas in their ranges,
and they are loaded from each of the three files that are written of them as they are (`cohort_loads`).

Their integers are small, so columns hold them as doubles; texts hold everything exactly; and metrics in
hundredths are read back from JSON numbers.
-/

namespace SkillBoard

/-! ## Students that are written are loaded -/

namespace Export

variable {w : Wording} {d : Dataset}

/-- Students whose metrics read back are loaded from the JSON that is written of them. -/
theorem loadJson_of_readsBack (hheld : ∀ s ∈ d.students, ∃ row, s.HeldBy row)
    (hreads : ∀ s ∈ d.students, ∀ m, ReadsBack (s.metric m)) (hpositive : ∀ s ∈ d.students, 0 < s.id)
    (hdistinct : (d.students.map (·.id)).Nodup) : loadJson w (json d.students) = .ok d := by
  have hself : ∀ p ∈ looseRows d.students, Reloads p.1 p.2 p.2 := by
    intro p hp
    have hmem : p.2 ∈ d.students := by
      rw [← map_snd_looseRows d.students]
      exact List.mem_map_of_mem hp
    obtain ⟨row, hrow⟩ := hheld _ hmem
    apply reloads_self hrow
    intro field x hx _
    rcases field.entry_cases with ⟨-, value, hv⟩ | ⟨-, value, hv⟩ | ⟨-, m, hv⟩
    · cases (hv _).symm.trans hx
    · cases (hv _).symm.trans hx
    · cases (hv _).symm.trans hx
      exact hreads _ hmem m
  refine loadJson_json.2 ⟨?_, hpositive, hdistinct⟩
  nth_rewrite 2 [← map_snd_looseRows d.students]
  rw [List.forall₂_map_right_iff, List.forall₂_same]
  exact hself

theorem loadCsv_of_heldBy (hheld : ∀ s ∈ d.students, ∃ row, s.HeldBy row)
    (hpositive : ∀ s ∈ d.students, 0 < s.id) (hdistinct : (d.students.map (·.id)).Nodup) :
    loadCsv w (csv d.students) = .ok d := by
  by_cases hne : d.students = []
  · obtain ⟨students⟩ := d
    obtain rfl : students = [] := hne
    rfl
  · rw [loadCsv_of_rows (rows_csv hne), ofRecords_csvRecord hheld hpositive hdistinct]

theorem loadFile_files {encode : List Column → List UInt8} {students : List Student}
    (hjson : loadJson w (json students) = .ok ⟨students⟩)
    (hcsv : loadCsv w (csv students) = .ok ⟨students⟩)
    (hcolumns : loadColumns (columns students) = .ok ⟨students⟩) :
    ∀ file ∈ files encode students, loadFile w (Path.ofString file.1) file.2 = .ok ⟨students⟩ := by
  have hextension : (Path.ofString (fileStem ++ ".csv")).extension = "csv" ∧
      (Path.ofString (fileStem ++ ".json")).extension = "json" ∧
      (Path.ofString (fileStem ++ ".parquet")).extension = "parquet" := by decide +kernel
  intro file hfile
  simp only [files, List.mem_cons, List.not_mem_nil, or_false] at hfile
  rcases hfile with rfl | rfl | rfl
  · simp only [loadFile, hextension.1, loadCsvFile, Content.read, hcsv]
  · simp only [loadFile, hextension.2.1, loadJsonFile, Content.read, Text.Utf8.decode?_encode, hjson]
  · simp only [loadFile, hextension.2.2, loadColumnarFile, hcolumns]

end Export

/-! ## Cohorts -/

namespace Cohort

/-- The ranges of a student's class, metrics and persona. -/
structure InRange (s : Student) : Prop where
  grade : 5 ≤ s.grade ∧ s.grade ≤ 10
  metric : ∀ m, m ≠ .engagementTime → 0 ≤ s.metric m ∧ s.metric m ≤ 100
  engagementTime : 5 ≤ s.engagementTime ∧ s.engagementTime ≤ 90
  persona : s.persona ∈ [0, 1, 2]

section

variable {i : Nat} {s : Student} (h : Drawn i s)

include h

theorem Drawn.readsBack (m : Metric) : (s.metric m).isFinite = true ∧ Export.ReadsBack (s.metric m) := by
  have hhighest : highest m ≤ 100 := by cases m <;> decide
  exact ⟨(h.metric_mem m).isFinite hhighest, (h.metric_mem m).readsBack hhighest⟩

theorem Drawn.withPersona (persona : Int) : Drawn i { s with persona } := by
  refine ⟨h.id_eq, h.grade_mem, ?_⟩
  intro m
  have hmetric := h.metric_mem m
  cases m <;> exact hmetric

theorem Drawn.inRange (hpersona : s.persona ∈ [0, 1, 2]) : InRange s := by
  have hends : (0 : Float) = Binary64.ofNat 0 ∧ (100 : Float) = Binary64.ofNat 100 ∧
      (5 : Float) = Binary64.ofNat 5 ∧ (90 : Float) = Binary64.ofNat 90 := by decide +kernel
  refine ⟨h.grade_mem, ?_, ?_, hpersona⟩
  · intro m hm
    have hmem := (h.metric_mem m).mem
    rw [hends.1, hends.2.1]
    cases m with
    | engagementTime => exact absurd rfl hm
    | _ => exact hmem
  · rw [hends.2.2.1, hends.2.2.2]
    exact (h.metric_mem .engagementTime).mem

/-- A student of a cohort can be held by columns. -/
theorem Drawn.heldBy (hi : i < size) (hpersona : s.persona ∈ [0, 1, 2]) :
    s.HeldBy (Export.columnRecord s).cell? := by
  have hid := h.id_eq
  have hgrade := h.grade_mem
  have hreal (m : Metric) : (Export.columnCell (.real (s.metric m))).Holds (.real (s.metric m)) :=
    .real (.number _) (h.readsBack m).1
  intro field
  refine ⟨_, Export.cell?_columnRecord s field, ?_⟩
  cases field with
  | studentId =>
    apply Export.holds_columnCell_integer
    rw [size] at hi
    omega
  | name => exact .text _
  | grade =>
    apply Export.holds_columnCell_integer
    omega
  | comprehension => exact hreal .comprehension
  | attention => exact hreal .attention
  | focus => exact hreal .focus
  | retention => exact hreal .retention
  | assessmentScore => exact hreal .assessmentScore
  | engagementTime => exact hreal .engagementTime
  | persona =>
    apply Export.holds_columnCell_integer
    simp only [List.mem_cons, List.not_mem_nil, or_false] at hpersona
    omega

end

section

variable {f : Analysis} (hf : f.Lawful) (seed : UInt64)

include hf

theorem length_draw : (draw f seed).length = size := by
  rw [← (forall_draw hf seed).length_eq, List.length_range]

/-- Personas change nothing else about the students that are drawn. -/
theorem forall_cohort : List.Forall₂ (fun i s => Drawn i s ∧ s.persona ∈ [0, 1, 2]) (List.range size)
    (Export.cohort f seed) := by
  have hlength : personaCount ≤ (draw f seed).length := by
    rw [length_draw hf]
    decide
  rw [Export.cohort, assignPersonas_eq hlength, List.forall₂_map_right_iff]
  apply (forall_draw hf seed).imp
  intro i s hs
  refine ⟨hs.withPersona _, ?_⟩
  have hlt := personaOf_lt (draw f seed) (pointOf (draw f seed) s)
  rw [personaCount] at hlt
  simp only [List.mem_cons, List.not_mem_nil, or_false]
  omega

end

end Cohort

namespace Export

/-- Where there are no other personas, every student is counted. -/
theorem sum_counts {students : List Student} (h : ∀ s ∈ students, s.persona ∈ [0, 1, 2]) :
    (counts students).sum = students.length := by
  have hcounts (students : List Student) : (counts students).sum = students.countP (·.persona == 0) +
      (students.countP (·.persona == 1) + students.countP (·.persona == 2)) := by
    simp [counts, Cohort.personaCount, List.range_succ]
  rw [hcounts]
  induction students with
  | nil => rfl
  | cons s students ih =>
    obtain ⟨hfirst, hrest⟩ := List.forall_mem_cons.1 h
    have hcounted := ih hrest
    simp only [List.mem_cons, List.not_mem_nil, or_false] at hfirst
    rcases hfirst with h0 | h1 | h2
    · simp [h0]
      omega
    · simp [h1]
      omega
    · simp [h2]
      omega

/-- **Every cohort is loaded from all its files**: whatever the seed, it has the ids from 1 to 60 in order,
all values are in their ranges, and so each student is counted under one of the three personas, and from
each of the files it is loaded as it is. -/
theorem cohort_loads {f : Analysis} (hf : f.Lawful) (w : Wording) (encode : List Column → List UInt8)
    (seed : UInt64) :
    (cohort f seed).map (·.id) = (List.range 60).map (fun i : Nat => (i : Int) + 1) ∧
    (∀ s ∈ cohort f seed, Cohort.InRange s) ∧ (counts (cohort f seed)).sum = 60 ∧
    loadJson w (json (cohort f seed)) = .ok ⟨cohort f seed⟩ ∧
    loadCsv w (csv (cohort f seed)) = .ok ⟨cohort f seed⟩ ∧
    loadColumns (columns (cohort f seed)) = .ok ⟨cohort f seed⟩ ∧
    ∀ file ∈ files encode (cohort f seed),
      loadFile w (Path.ofString file.1) file.2 = .ok ⟨cohort f seed⟩ := by
  have hall := Cohort.forall_cohort hf seed
  generalize cohort f seed = students at hall
  have hids : students.map (·.id) = (List.range 60).map fun i : Nat => (i : Int) + 1 := by
    rw [← List.forall₂_eq_eq_eq, List.forall₂_map_left_iff, List.forall₂_map_right_iff]
    apply List.Forall₂.flip
    exact hall.imp fun i s hs => hs.1.id_eq
  have hmem : ∀ s ∈ students, ∃ i < Cohort.size, Cohort.Drawn i s ∧ s.persona ∈ [0, 1, 2] := by
    intro s hs
    obtain ⟨i, rfl⟩ := List.get_of_mem hs
    have hi : i.1 < (List.range Cohort.size).length := by
      rw [hall.length_eq]
      exact i.2
    have hdrawn := hall.get hi i.2
    rw [List.length_range] at hi
    rw [List.get_eq_getElem, List.getElem_range] at hdrawn
    exact ⟨i, hi, hdrawn⟩
  have hheld : ∀ s ∈ students, ∃ row, s.HeldBy row := by
    intro s hs
    obtain ⟨i, hi, hdrawn, hpersona⟩ := hmem s hs
    exact ⟨_, hdrawn.heldBy hi hpersona⟩
  have hpositive : ∀ s ∈ students, 0 < s.id := by
    intro s hs
    obtain ⟨i, -, hdrawn, -⟩ := hmem s hs
    rw [hdrawn.id_eq]
    omega
  have hdistinct : (students.map (·.id)).Nodup := by
    rw [hids]
    decide +kernel
  have hreads : ∀ s ∈ students, ∀ m, ReadsBack (s.metric m) := by
    intro s hs m
    obtain ⟨i, -, hdrawn, -⟩ := hmem s hs
    exact (hdrawn.readsBack m).2
  have hjson : loadJson w (json students) = .ok ⟨students⟩ :=
    loadJson_of_readsBack hheld hreads hpositive hdistinct
  have hcsv : loadCsv w (csv students) = .ok ⟨students⟩ := loadCsv_of_heldBy hheld hpositive hdistinct
  have hcolumns : loadColumns (columns students) = .ok ⟨students⟩ :=
    loadColumns_columns hheld hpositive hdistinct
  refine ⟨hids, ?_, ?_, hjson, hcsv, hcolumns, loadFile_files hjson hcsv hcolumns⟩
  · intro s hs
    obtain ⟨i, -, hdrawn, hpersona⟩ := hmem s hs
    exact hdrawn.inRange hpersona
  · rw [sum_counts fun s hs => (hmem s hs).elim fun i h => h.2.2, ← hall.length_eq, List.length_range]
    rfl

/-- By their series, logarithm and cosine give the first student that the seed of a run stands for. -/
theorem cohort_loads_series : Analysis.series.Lawful ∧
    (Cohort.draw Analysis.series seed).head? =
      some ⟨1, "Aarav A.", 7, 84.28, 68.03, 72.33, 82.97, 81.49, 35.86, 0⟩ ∧
    loadJson .plain (json (cohort Analysis.series seed)) = .ok ⟨cohort Analysis.series seed⟩ ∧
    loadCsv .plain (csv (cohort Analysis.series seed)) = .ok ⟨cohort Analysis.series seed⟩ ∧
    loadColumns (columns (cohort Analysis.series seed)) = .ok ⟨cohort Analysis.series seed⟩ := by
  obtain ⟨-, -, -, hjson, hcsv, hcolumns, -⟩ := cohort_loads Analysis.series_lawful .plain (fun _ => []) seed
  exact ⟨Analysis.series_lawful, by decide +kernel, hjson, hcsv, hcolumns⟩

end Export

end SkillBoard
