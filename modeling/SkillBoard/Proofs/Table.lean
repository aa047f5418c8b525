import SkillBoard.Proofs.Binary.Bits
import SkillBoard.Proofs.Sorting
import SkillBoard.Table

/-!
# The rows of the student table

* `mem_rows`: a position is a row exactly if its student passes the search, whatever the metrics are.
* `transCmp_compareBy`: where all metrics are numbers, `compareBy` is a total preorder for each field
  and direction.
* `TableView.Shows` says what a display order is. `eq_rows_iff_shows`: there is one, and it is
  `TableView.rows`.
-/

namespace SkillBoard

/-! ## The order of students -/

/-- No metric of the student is "not a number". -/
def Student.Measured (s : Student) : Prop := ∀ m, (s.metric m).isNaN = false

instance : DecidablePred Student.Measured := fun s =>
  decidable_of_iff (∀ m ∈ Metric.all, (s.metric m).isNaN = false)
    ⟨fun h m => h m (by cases m <;> decide), fun h m _ => h m⟩

/-- What a field holds, as one projection of the student. -/
theorem Field.entry_cases (field : Field) :
    (field.kind = .integer ∧ ∃ value : Student → Int, ∀ s : Student, s.entry field = .integer (value s)) ∨
    (field.kind = .text ∧ ∃ value : Student → String, ∀ s : Student, s.entry field = .text (value s)) ∨
    (field.kind = .real ∧ ∃ m : Metric, ∀ s : Student, s.entry field = .real (s.metric m)) := by
  cases field with
  | studentId => exact .inl ⟨rfl, (·.id), fun _ => rfl⟩
  | name => exact .inr (.inl ⟨rfl, (·.name), fun _ => rfl⟩)
  | grade => exact .inl ⟨rfl, (·.grade), fun _ => rfl⟩
  | comprehension => exact .inr (.inr ⟨rfl, .comprehension, fun _ => rfl⟩)
  | attention => exact .inr (.inr ⟨rfl, .attention, fun _ => rfl⟩)
  | focus => exact .inr (.inr ⟨rfl, .focus, fun _ => rfl⟩)
  | retention => exact .inr (.inr ⟨rfl, .retention, fun _ => rfl⟩)
  | assessmentScore => exact .inr (.inr ⟨rfl, .assessmentScore, fun _ => rfl⟩)
  | engagementTime => exact .inr (.inr ⟨rfl, .engagementTime, fun _ => rfl⟩)
  | persona => exact .inl ⟨rfl, (·.persona), fun _ => rfl⟩

theorem transCmp_entry (field : Field) :
    Std.TransCmp fun a b : Subtype Student.Measured =>
      (a.1.entry field).compare (b.1.entry field) := by
  rcases field.entry_cases with ⟨-, value, h⟩ | ⟨-, value, h⟩ | ⟨-, m, h⟩
  · refine transCmp_of_key Ord.compare (fun s => value s.1) fun a b => ?_
    rw [h, h, Entry.compare]
  · refine transCmp_of_key (List.compareLex Ord.compare) (fun s => Text.foldCase (value s.1))
      fun a b => ?_
    rw [h, h, Entry.compare]
  · refine transCmp_of_key Ord.compare (fun s => Binary64.rank (s.1.metric m)) fun a b => ?_
    rw [h, h, Entry.compare, Binary64.compare_eq_rank (a.2 m) (b.2 m)]

/-- The order by a field is a total preorder, in both directions. -/
theorem transCmp_compareBy (field : Field) (direction : Direction) :
    Std.TransCmp fun a b : Subtype Student.Measured => compareBy field direction a.1 b.1 := by
  have h := transCmp_entry field
  cases direction with
  | ascending => exact h
  | descending =>
    have hswap : (fun a b : Subtype Student.Measured => compareBy field .descending a.1 b.1) =
        fun a b => (b.1.entry field).compare (a.1.entry field) := by
      funext a b
      exact (h.eq_swap (a := b) (b := a)).symm
    rw [hswap]
    exact @Std.TransCmp.opposite _ _ h

/-! ## The rows -/

/-- The students that pass the search, with their positions. -/
def TableView.found (v : TableView) (students : List Student) : List (Student × Nat) :=
  students.zipIdx.filter fun (s, _) => matchesSearch s v.search

theorem TableView.rows_eq (v : TableView) (students : List Student) :
    v.rows students = (stableSort
      (fun a b => compareBy v.field v.direction a.1 b.1 == .lt) (v.found students)).map (·.2) := rfl

theorem TableView.mem_found {v : TableView} {students : List Student} {s : Student} {i : Nat} :
    (s, i) ∈ v.found students ↔ students[i]? = some s ∧ matchesSearch s v.search = true := by
  rw [TableView.found, List.mem_filter, List.mem_zipIdx_iff_getElem?]

theorem TableView.found_pairwise (v : TableView) (students : List Student) :
    (v.found students).Pairwise fun a b => a.2 < b.2 := by
  apply List.Pairwise.filter
  have h := List.pairwise_lt_range' (s := 0) (n := students.length)
  rw [← List.zipIdx_map_snd 0 students] at h
  exact List.pairwise_map.1 h

theorem TableView.rows_perm (v : TableView) (students : List Student) :
    (v.rows students).Perm ((v.found students).map (·.2)) :=
  (stableSort_perm _ _).map _

theorem TableView.mem_rows {v : TableView} {students : List Student} {i : Nat} :
    i ∈ v.rows students ↔ ∃ s, students[i]? = some s ∧ matchesSearch s v.search = true := by
  rw [(v.rows_perm students).mem_iff, List.mem_map]
  constructor
  · rintro ⟨⟨s, j⟩, hmem, rfl⟩
    exact ⟨s, mem_found.1 hmem⟩
  · rintro ⟨s, h⟩
    exact ⟨(s, i), mem_found.2 h, rfl⟩

theorem TableView.rows_lt {v : TableView} {students : List Student} {i : Nat}
    (h : i ∈ v.rows students) : i < students.length := by
  obtain ⟨s, hs, -⟩ := mem_rows.1 h
  exact (List.getElem?_eq_some_iff.1 hs).1

theorem TableView.rows_nodup (v : TableView) (students : List Student) :
    (v.rows students).Nodup := by
  rw [(v.rows_perm students).nodup_iff, List.Nodup, List.pairwise_map]
  exact (v.found_pairwise students).imp fun h => h.ne

/-! ## The display order -/

/-- A display order for a list of students: every match is shown once and nothing else, no row comes
before an earlier one, and of two that are not told apart the one that is earlier in the source is
shown first. -/
structure TableView.Shows (v : TableView) (students : List Student) (order : List Nat) : Prop where
  once : order.Nodup
  matching : ∀ i, i ∈ order ↔ ∃ s, students[i]? = some s ∧ matchesSearch s v.search = true
  sorted : order.Pairwise fun i j => ∀ a b, students[i]? = some a → students[j]? = some b →
    compareBy v.field v.direction a b ≠ .gt
  stable : order.Pairwise fun i j => ∀ a b, students[i]? = some a → students[j]? = some b →
    compareBy v.field v.direction a b = .eq → i < j

theorem TableView.rows_inOrder (v : TableView) (students : List Student)
    (measured : ∀ s ∈ students, s.Measured) :
    (v.rows students).Pairwise fun i j => ∀ a b, students[i]? = some a → students[j]? = some b →
      compareBy v.field v.direction a b ≠ .gt ∧
        (compareBy v.field v.direction a b = .eq → i < j) := by
  let byStudent : Std.TransCmp fun a b : Subtype fun p : Student × Nat => p.1.Measured =>
      compareBy v.field v.direction a.1.1 b.1.1 :=
    @transCmp_of_key _ (Subtype Student.Measured) _ _ (transCmp_compareBy v.field v.direction)
      (fun p => ⟨p.1.1, p.2⟩) fun _ _ => rfl
  have hfound : ∀ p ∈ v.found students, students[p.2]? = some p.1 := fun p hp => (mem_found.1 hp).1
  have h := pairwise_stableSort (fun a b => compareBy v.field v.direction a.1 b.1) byStudent
    (fun p hp => measured p.1 (List.mem_of_getElem? (hfound p hp))) (v.found_pairwise students)
  rw [rows_eq, List.pairwise_map]
  refine h.imp_of_mem fun {p q} hp hq hpq a b ha hb => ?_
  rw [(stableSort_perm _ _).mem_iff] at hp hq
  obtain rfl : p.1 = a := Option.some_inj.1 ((hfound p hp).symm.trans ha)
  obtain rfl : q.1 = b := Option.some_inj.1 ((hfound q hq).symm.trans hb)
  exact hpq

theorem TableView.rows_shows (v : TableView) (students : List Student)
    (measured : ∀ s ∈ students, s.Measured) : v.Shows students (v.rows students) where
  once := v.rows_nodup students
  matching _ := mem_rows
  sorted := (v.rows_inOrder students measured).imp fun h a b ha hb => (h a b ha hb).1
  stable := (v.rows_inOrder students measured).imp fun h a b ha hb => (h a b ha hb).2

/-- There is one display order. -/
theorem TableView.Shows.unique {v : TableView} {students : List Student} {xs ys : List Nat}
    (measured : ∀ s ∈ students, s.Measured) (hx : v.Shows students xs) (hy : v.Shows students ys) :
    xs = ys := by
  have order := transCmp_compareBy v.field v.direction
  refine List.Perm.eq_of_pairwise (fun i j hi hj hij hji => ?_) (hx.sorted.and hx.stable)
    (hy.sorted.and hy.stable)
    ((List.perm_ext_iff_of_nodup hx.once hy.once).2 fun i => by rw [hx.matching, hy.matching])
  obtain ⟨a, ha, -⟩ := (hx.matching i).1 hi
  obtain ⟨b, hb, -⟩ := (hy.matching j).1 hj
  -- each of the two may stand before the other, so they tie, and then their positions decide
  have hab := hij.1 a b ha hb
  have hba := hji.1 b a hb ha
  have hswap : compareBy v.field v.direction a b = (compareBy v.field v.direction b a).swap :=
    order.eq_swap (a := ⟨a, measured a (List.mem_of_getElem? ha)⟩)
      (b := ⟨b, measured b (List.mem_of_getElem? hb)⟩)
  have htie : compareBy v.field v.direction b a = .eq := by
    rw [hswap] at hab
    cases h : compareBy v.field v.direction b a <;> simp_all
  rw [htie] at hswap
  exact absurd (hij.2 a b ha hb hswap) (hji.2 b a hb ha htie).asymm

/-- **The rows of the table are the one display order of the students**: for each field and direction
the comparison is a total preorder, and the rows are the one list with every match once, sorted, and
ties in source order. -/
theorem TableView.eq_rows_iff_shows (v : TableView) (students : List Student)
    (measured : ∀ s ∈ students, s.Measured) :
    (∀ field direction, Std.TransCmp fun a b : Subtype Student.Measured =>
      compareBy field direction a.1 b.1) ∧
    ∀ order, order = v.rows students ↔ v.Shows students order := by
  refine ⟨transCmp_compareBy, fun order => ⟨?_, fun h => ?_⟩⟩
  · rintro rfl
    exact v.rows_shows students measured
  · exact h.unique measured (v.rows_shows students measured)

/-- Two students whose times are the two zeros, and whose names differ in case. -/
def twoZeros : List Student :=
  [⟨1, "Ada", 5, 50, 50, 50, 50, 80, 0.0, 0⟩, ⟨2, "ADA", 5, 50, 50, 50, 50, 80, -0.0, 0⟩]

theorem twoZeros_shows : (∀ s ∈ twoZeros, s.Measured) ∧
    TableView.Shows ⟨"", .engagementTime, .descending⟩ twoZeros [0, 1] ∧
    TableView.Shows ⟨"", .name, .descending⟩ twoZeros [0, 1] := by
  have measured : ∀ s ∈ twoZeros, s.Measured := by decide +kernel
  refine ⟨measured, ?_, ?_⟩
  · exact ((TableView.eq_rows_iff_shows _ twoZeros measured).2 [0, 1]).1 (by decide +kernel)
  · exact ((TableView.eq_rows_iff_shows _ twoZeros measured).2 [0, 1]).1 (by decide +kernel)

end SkillBoard
