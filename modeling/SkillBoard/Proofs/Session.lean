import SkillBoard.Proofs.Table
import SkillBoard.Session

/-!
# What a session keeps is never stale

A session keeps rows, statistics and colours that are functions of its dataset and its table.
`Session.Coherent` says that they are the ones of the present dataset and table; every operation
preserves it (`Coherent.perform`), so it holds after any run from any opening (`run_coherent`).
-/

namespace SkillBoard

/-- How a session begins. -/
inductive Opening
  | empty
  | dataset (d : Dataset)
  /-- Without a dataset, for what a chain of messages says. -/
  | error (chain : String)

/-- The session that has just begun. -/
def Opening.session : Opening → Session
  | empty => Session.empty
  | dataset d => Session.ofDataset d
  | error chain => Session.ofError chain

namespace Session

/-- Everything kept is up to date: the rows are those of the table, statistics and colours those of the
dataset (without one, those of an empty session), and there is no message beside a dataset. The
selection has a student if there is any. -/
structure Coherent (s : Session) : Prop where
  rows : s.visible = s.table.rows s.students
  loaded : ∀ d, s.dataset = some d → s.overview = Overview.of d.students ∧
    s.correlations = scoreCorrelations d.students ∧ s.colours = PersonaColours.of d.personas ∧
    s.status = none
  unloaded : s.dataset = none → s.overview = empty.overview ∧ s.correlations = empty.correlations ∧
    s.colours = empty.colours
  selection : s.selected < s.students.length ∨ s.selected = 0 ∧ s.students = []

theorem rows_nil (v : TableView) : v.rows [] = [] := by
  rw [List.eq_nil_iff_forall_not_mem]
  intro i hi
  exact absurd (TableView.rows_lt hi) (Nat.not_lt_zero i)

theorem coherent_empty : Coherent empty where
  rows := (rows_nil _).symm
  loaded _ h := nomatch h
  unloaded _ := ⟨rfl, rfl, rfl⟩
  selection := .inr ⟨rfl, rfl⟩

theorem coherent_ofError (chain : String) : Coherent (ofError chain) where
  rows := (rows_nil _).symm
  loaded _ h := nomatch h
  unloaded _ := ⟨rfl, rfl, rfl⟩
  selection := .inr ⟨rfl, rfl⟩

/-- After a load nothing of the session before it matters. -/
theorem coherent_load (s : Session) (d : Dataset) : Coherent (s.load d) where
  rows := rfl
  loaded d' h := by
    obtain rfl : d = d' := Option.some_inj.1 h
    exact ⟨rfl, rfl, rfl, rfl⟩
  unloaded h := nomatch h
  selection := by
    show 0 < d.students.length ∨ 0 = 0 ∧ d.students = []
    rcases List.eq_nil_or_concat d.students with h | ⟨rest, last, h⟩
    · exact .inr ⟨rfl, h⟩
    · exact .inl (by simp [h])

theorem Coherent.showTable {s : Session} (h : s.Coherent) (v : TableView) :
    (s.showTable v).Coherent where
  rows := rfl
  loaded := h.loaded
  unloaded := h.unloaded
  selection := h.selection

theorem Coherent.select {s : Session} (h : s.Coherent) (i : Nat) : (s.select i).Coherent := by
  unfold Session.select
  split
  next hi => exact ⟨h.rows, h.loaded, h.unloaded, .inl hi⟩
  next => exact h

theorem Coherent.perform {s : Session} (h : s.Coherent) (op : Operation) : (s.perform op).Coherent := by
  cases op with
  | load d => exact coherent_load s d
  | search text => exact h.showTable _
  | sortByKey key =>
    show (s.sortByKey key).Coherent
    unfold Session.sortByKey
    split
    · exact h.showTable _
    · exact h
  | applySetting setting =>
    show (s.applySetting setting).Coherent
    unfold Session.applySetting
    split
    · exact h.showTable _
    · exact h
  | clickHeading field => exact h.showTable _
  | select i => exact h.select i
  | rederive => exact h.showTable s.table

theorem coherent_opening (o : Opening) : o.session.Coherent := by
  cases o with
  | empty => exact coherent_empty
  | dataset d => exact coherent_load _ d
  | error chain => exact coherent_ofError chain

theorem Coherent.run {s : Session} (h : s.Coherent) (ops : List Operation) : (s.run ops).Coherent := by
  induction ops generalizing s with
  | nil => exact h
  | cons op ops ih => exact ih (h.perform op)

theorem Coherent.visible_lt {s : Session} (h : s.Coherent) {i : Nat} (hi : i ∈ s.visible) :
    i < s.students.length :=
  TableView.rows_lt (h.rows ▸ hi)

/-- Every visible row has its student. -/
theorem Coherent.visibleStudents_eq {s : Session} (h : s.Coherent) :
    s.visibleStudents.map (fun p => (p.1, some p.2)) = s.visible.map fun i => (i, s.students[i]?) := by
  unfold Session.visibleStudents
  have hlt : ∀ i ∈ s.visible, i < s.students.length := fun i hi => h.visible_lt hi
  generalize s.visible = rows at hlt
  induction rows with
  | nil => rfl
  | cons i rows ih =>
    obtain ⟨hi, hrest⟩ := List.forall_mem_cons.1 hlt
    simp only [List.filterMap_cons, List.getElem?_eq_getElem hi, Option.map_some, List.map_cons, ih hrest]

theorem Coherent.profile_eq_none_iff {s : Session} (h : s.Coherent) :
    s.profile? = none ↔ s.students = [] := by
  rw [profile?, List.getElem?_eq_none_iff]
  rcases h.selection with hlt | ⟨h0, hnil⟩
  · constructor
    · intro hle
      omega
    · intro hnil
      rw [hnil] at hlt
      exact absurd hlt (Nat.not_lt_zero _)
  · simp [hnil, h0]

/-- **After any run from any opening the session is coherent**: what it keeps is what would be computed
anew, each visible row has a student, and there is a profile exactly if there are students. -/
theorem run_coherent (o : Opening) (ops : List Operation) :
    (o.session.run ops).Coherent ∧
    (∀ i ∈ (o.session.run ops).visible, i < (o.session.run ops).students.length) ∧
    ((o.session.run ops).visibleStudents.map fun p => (p.1, some p.2)) =
      ((o.session.run ops).visible.map fun i => (i, (o.session.run ops).students[i]?)) ∧
    ((o.session.run ops).profile? = none ↔ (o.session.run ops).students = []) := by
  have h := (coherent_opening o).run ops
  exact ⟨h, fun _ hi => h.visible_lt hi, h.visibleStudents_eq, h.profile_eq_none_iff⟩

end Session

end SkillBoard
