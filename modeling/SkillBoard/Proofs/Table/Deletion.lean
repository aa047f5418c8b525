import SkillBoard.Proofs.Table

/-!
# Rows taken out of a display order

What is left of a display order when rows are taken out of it is the display order of what is left
(`TableView.Shows.filter`), because there is only one. So a search only takes rows out of the table, and
students that are added to a dataset only push others apart (`TableView.rows_filter`).
-/

namespace SkillBoard

theorem matchesSearch_empty (s : Student) : matchesSearch s "" = true := by
  simp [matchesSearch]

namespace TableView

variable {v w : TableView} {students all : List Student}

/-- What holds of the students of rows along a list, still holds when rows are taken out, whichever list
the students left are looked up in. -/
theorem pairwise_filter {R : Nat → Nat → Student → Student → Prop} {order : List Nat} {keep : Nat → Bool}
    (hget : ∀ i, keep i = true → students[i]? = all[i]?)
    (h : order.Pairwise fun i j => ∀ a b, all[i]? = some a → all[j]? = some b → R i j a b) :
    (order.filter keep).Pairwise fun i j =>
      ∀ a b, students[i]? = some a → students[j]? = some b → R i j a b := by
  refine (h.filter keep).imp_of_mem fun {i j} hi hj hij a b ha hb => ?_
  rw [hget i (List.mem_filter.1 hi).2] at ha
  rw [hget j (List.mem_filter.1 hj).2] at hb
  exact hij a b ha hb

/-- A display order of more students, without some rows, is one of the students left if they are those
found. -/
theorem Shows.filter {order : List Nat} (h : w.Shows all order) (hfield : w.field = v.field)
    (hdirection : w.direction = v.direction) {keep : Nat → Bool}
    (hget : ∀ i, keep i = true → students[i]? = all[i]?)
    (hfound : ∀ i, i ∈ order ∧ keep i = true ↔
      ∃ s, students[i]? = some s ∧ matchesSearch s v.search = true) :
    v.Shows students (order.filter keep) where
  once := h.once.filter keep
  matching i := by rw [List.mem_filter, hfound]
  sorted := by
    rw [← hfield, ← hdirection]
    exact pairwise_filter hget h.sorted
  stable := by
    rw [← hfield, ← hdirection]
    exact pairwise_filter hget h.stable

/-- The rows of a search, among all rows. -/
theorem shows_filter_search (v : TableView) (measured : ∀ s ∈ students, s.Measured) :
    v.Shows students ((({ v with search := "" } : TableView).rows students).filter fun i =>
      students[i]?.any (matchesSearch · v.search)) := by
  have hall := rows_shows { v with search := "" } students measured
  refine hall.filter (v := v) rfl rfl (fun _ _ => rfl) ?_
  intro i
  rw [mem_rows, Option.any_eq_true]
  constructor
  · rintro ⟨-, hfound⟩
    exact hfound
  · rintro ⟨s, hs, hfound⟩
    exact ⟨⟨s, hs, matchesSearch_empty s⟩, s, hs, hfound⟩

/-- The rows of the first students, among the rows of more. -/
theorem shows_filter_append (v : TableView) {more : List Student}
    (measured : ∀ s ∈ students ++ more, s.Measured) :
    v.Shows students ((v.rows (students ++ more)).filter (· < students.length)) := by
  have hget (i : Nat) (hi : i < students.length) : students[i]? = (students ++ more)[i]? :=
    (List.getElem?_append_left hi).symm
  refine (v.rows_shows (students ++ more) measured).filter rfl rfl
    (fun i hi => hget i (of_decide_eq_true hi)) fun i => ?_
  rw [mem_rows, decide_eq_true_iff]
  constructor
  · rintro ⟨⟨s, hs, hfound⟩, hi⟩
    exact ⟨s, (hget i hi).trans hs, hfound⟩
  · rintro ⟨s, hs, hfound⟩
    have hi : i < students.length := (List.getElem?_eq_some_iff.1 hs).1
    exact ⟨⟨s, (hget i hi).symm.trans hs, hfound⟩, hi⟩

/-- **A search takes rows out and reorders none, and more students reorder none**: the rows are those of
the empty search without the students not found, and what is left of the rows of a longer dataset without
the students added. -/
theorem rows_filter (v : TableView) (students : List Student) (measured : ∀ s ∈ students, s.Measured) :
    v.rows students = (({ v with search := "" } : TableView).rows students).filter (fun i =>
      students[i]?.any (matchesSearch · v.search)) ∧
    ∀ more : List Student, (∀ s ∈ more, s.Measured) →
      (v.rows (students ++ more)).filter (· < students.length) = v.rows students := by
  have hrows := v.rows_shows students measured
  refine ⟨hrows.unique measured (v.shows_filter_search measured), fun more hmore => ?_⟩
  have hall : ∀ s ∈ students ++ more, s.Measured := List.forall_mem_append.2 ⟨measured, hmore⟩
  exact (v.shows_filter_append hall).unique measured hrows

theorem rows_filter_twoZeros : (∀ s ∈ twoZeros, s.Measured) ∧
    ((⟨"A", .name, .descending⟩ : TableView).rows twoZeros =
      ((⟨"", .name, .descending⟩ : TableView).rows twoZeros).filter fun i =>
        twoZeros[i]?.any (matchesSearch · "A")) ∧
    (initial.rows (twoZeros ++ [⟨3, "Bea", 5, 50, 50, 50, 50, 90, 30, 0⟩])).filter (· < 2) = [0, 1] := by
  have measured : ∀ s ∈ twoZeros, s.Measured := by decide +kernel
  refine ⟨measured, (rows_filter ⟨"A", .name, .descending⟩ twoZeros measured).1, ?_⟩
  refine ((rows_filter initial twoZeros measured).2 _ (by decide +kernel)).trans ?_
  decide +kernel

end TableView

end SkillBoard
