import SkillBoard.Proofs.Session
import SkillBoard.Screen

/-!
# The selection and the table do not meet

Operations on the table's settings change what is shown, selections change whose profile is shown, and
neither looks at the other.

* `Coherent.run_onTable`: a run of table operations shows the table of the settings they lead to.
* `Coherent.run_interleaving`: interleaved with selections they do what they do alone, and so do the
  selections.
* `selection_independent` adds the link on the name in a row: it selects the student painted there, and
  no table operation takes the selection away.
-/

namespace SkillBoard

/-- A merge of two lists that keeps the order of each. -/
inductive Interleaving {α : Type} : List α → List α → List α → Prop
  | nil : Interleaving [] [] []
  | left {a : α} {xs ys zs : List α} (h : Interleaving xs ys zs) : Interleaving (a :: xs) ys (a :: zs)
  | right {a : α} {xs ys zs : List α} (h : Interleaving xs ys zs) : Interleaving xs (a :: ys) (a :: zs)

/-- The operation changes the settings of the table, if anything. -/
def Operation.OnTable : Operation → Prop
  | search _ | sortByKey _ | applySetting _ | clickHeading _ => True
  | load _ | select _ | rederive => False

instance : DecidablePred Operation.OnTable := fun op => by
  cases op <;> unfold Operation.OnTable <;> infer_instance

/-- The settings that an operation leads to. -/
def TableView.perform (v : TableView) : Operation → TableView
  | .search text => { v with search := text }
  | .sortByKey key => (v.sortByKey? key).getD v
  | .applySetting setting => (v.applySetting? setting).getD v
  | .clickHeading field => v.clickHeading field
  | _ => v

namespace Session

variable {s : Session}

/-! ## Table operations -/

theorem Coherent.showTable_self (h : s.Coherent) : s.showTable s.table = s := by
  show { s with visible := s.table.rows s.students } = s
  rw [← h.rows]

theorem Coherent.perform_onTable (h : s.Coherent) {op : Operation} (hop : op.OnTable) :
    s.perform op = s.showTable (s.table.perform op) := by
  cases op with
  | search text => rfl
  | sortByKey key =>
    show s.sortByKey key = s.showTable ((s.table.sortByKey? key).getD s.table)
    unfold sortByKey
    cases s.table.sortByKey? key with
    | some v => rfl
    | none => exact h.showTable_self.symm
  | applySetting setting =>
    show s.applySetting setting = s.showTable ((s.table.applySetting? setting).getD s.table)
    unfold applySetting
    cases s.table.applySetting? setting with
    | some v => rfl
    | none => exact h.showTable_self.symm
  | clickHeading field => rfl
  | load d => cases hop
  | select i => cases hop
  | rederive => cases hop

theorem run_cons (s : Session) (op : Operation) (ops : List Operation) :
    s.run (op :: ops) = (s.perform op).run ops := rfl

theorem showTable_showTable (s : Session) (v w : TableView) :
    (s.showTable v).showTable w = s.showTable w := rfl

/-- Only where they end up matters of the settings in between. -/
theorem Coherent.run_onTable (h : s.Coherent) {ops : List Operation} (hops : ∀ op ∈ ops, op.OnTable) :
    s.run ops = s.showTable (ops.foldl TableView.perform s.table) := by
  induction ops generalizing s with
  | nil => exact h.showTable_self.symm
  | cons op ops ih =>
    obtain ⟨hop, hrest⟩ := List.forall_mem_cons.1 hops
    rw [run_cons, ih (h.perform op) hrest, h.perform_onTable hop, showTable_showTable, List.foldl_cons]
    rfl

/-! ## Selections -/

/-- What a selection leads to: a position without a student is ignored. -/
def selecting (s : Session) (selected i : Nat) : Nat := if i < s.students.length then i else selected

theorem perform_select (s : Session) (i : Nat) :
    s.perform (.select i) = { s with selected := s.selecting s.selected i } := by
  show s.select i = _
  unfold select selecting
  split
  · rfl
  · rfl

theorem run_select (s : Session) (picks : List Nat) :
    s.run (picks.map .select) = { s with selected := picks.foldl s.selecting s.selected } := by
  induction picks generalizing s with
  | nil => rfl
  | cons i picks ih =>
    rw [List.map_cons, run_cons, perform_select, ih]
    rfl

/-! ## Interleaved -/

/-- **Neither notices the other**: of a run in which table operations and selections interleave, the
table is that of the table operations alone, the selection that of the selections alone, and nothing
else changes. -/
theorem Coherent.run_interleaving (h : s.Coherent) {ops onTable : List Operation} {picks : List Nat}
    (htable : ∀ op ∈ onTable, op.OnTable) (hmerge : Interleaving onTable (picks.map .select) ops) :
    s.run ops = { s with
      table := (s.run onTable).table
      visible := (s.run onTable).visible
      selected := (s.run (picks.map .select)).selected } := by
  rw [h.run_onTable htable, run_select]
  generalize hselects : picks.map Operation.select = selects at hmerge
  induction hmerge generalizing s picks with
  | nil =>
    obtain rfl := List.map_eq_nil_iff.1 hselects
    exact h.showTable_self.symm
  | @left op onTable _ ops _ ih =>
    obtain ⟨hop, hrest⟩ := List.forall_mem_cons.1 htable
    rw [run_cons, ih (h.perform op) hrest hselects, h.perform_onTable hop]
    rfl
  | right _ ih =>
    obtain ⟨i, rest, rfl, rfl, hrest⟩ := List.map_eq_cons_iff.1 hselects
    rw [run_cons, ih (h.perform (.select i)) htable hrest, perform_select]
    rfl

/-! ## Rows -/

theorem Coherent.getElem?_visibleStudents (h : s.Coherent) (k : Nat) :
    s.visibleStudents[k]?.map (fun p => (p.1, some p.2)) =
      s.visible[k]?.map fun i => (i, s.students[i]?) := by
  rw [← List.getElem?_map, h.visibleStudents_eq, List.getElem?_map]

theorem Coherent.exists_visible (h : s.Coherent) {k : Nat} (hk : k < s.visible.length) :
    ∃ i student, s.visibleStudents[k]? = some (i, student) ∧ s.visible[k]? = some i ∧
      s.students[i]? = some student := by
  have hrow := h.getElem?_visibleStudents k
  rw [List.getElem?_eq_getElem hk, Option.map_some, Option.map_eq_some_iff] at hrow
  obtain ⟨⟨i, student⟩, hstudent, heq⟩ := hrow
  obtain ⟨rfl, hs⟩ := Prod.mk.inj heq
  exact ⟨_, student, hstudent, List.getElem?_eq_getElem hk, hs.symm⟩

theorem drop_flatMap {α β : Type} {f : α → List β} {n : Nat} (hf : ∀ a, (f a).length = n) (xs : List α)
    (k : Nat) : (xs.flatMap f).drop (k * n) = (xs.drop k).flatMap f := by
  induction xs generalizing k with
  | nil => simp
  | cons a xs ih =>
    cases k with
    | zero => simp
    | succ k =>
      have hlength : (k + 1) * n = (f a).length + k * n := by rw [hf, Nat.succ_mul, Nat.add_comm]
      rw [List.flatMap_cons, hlength, List.drop_length_add_append, ih, List.drop_succ_cons]

/-- The cells painted in row `k` of the table, which stand behind the headings row by row. -/
def paintedRow (s : Session) (k : Nat) : List String :=
  ((Screen.table s).drop ((k + 1) * Field.all.length)).take Field.all.length

theorem paintedRow_eq {k i : Nat} {student : Student}
    (hk : s.visibleStudents[k]? = some (i, student)) :
    s.paintedRow k = Field.all.map fun field => (student.entry field).shown := by
  let cells (p : Nat × Student) : List String := Field.all.map fun field => (p.2.entry field).shown
  obtain ⟨hlt, hrow⟩ := List.getElem?_eq_some_iff.1 hk
  have hne : s.visibleStudents.isEmpty = false := by
    rw [List.isEmpty_eq_false_iff]
    exact List.ne_nil_of_length_pos (Nat.zero_lt_of_lt hlt)
  have htable : Screen.table s = Screen.headings s.table ++ s.visibleStudents.flatMap cells := by
    unfold Screen.table
    simp only [hne, Bool.false_eq_true, if_false, List.append_nil]
    rfl
  have hheadings : (Screen.headings s.table).length = Field.all.length := List.length_map _
  have hdrop : (Screen.table s).drop ((k + 1) * Field.all.length) =
      (s.visibleStudents.drop k).flatMap cells := by
    rw [htable, Nat.succ_mul, Nat.add_comm]
    nth_rewrite 1 [← hheadings]
    rw [List.drop_length_add_append, drop_flatMap fun _ => List.length_map _]
  rw [paintedRow, hdrop, List.drop_eq_getElem_cons hlt, List.flatMap_cons, hrow,
    List.take_append_of_le_length (by simp [cells])]
  exact List.take_of_length_le (by simp [cells])

/-- The link on the name in row `k` stands for the student who is painted there. -/
structure RowSelects (s : Session) (k i : Nat) (student : Student) : Prop where
  painted : s.paintedRow k = Field.all.map fun field => (student.entry field).shown
  link : s.nameLink? k = some (.select i)
  /-- Where the name takes any width the link can be hit, and a click does what the link says. -/
  click : s.nameShows k = true → s.gesture (.row k) = s.perform (.select i)
  /-- The student stays selected. -/
  stays : ∀ ops : List Operation, (∀ op ∈ ops, op.OnTable) →
    ((s.perform (.select i)).run ops).profile? = some student
  /-- A row that is sorted or filtered away between painting and the click is still the one hit. -/
  late : ∀ ops : List Operation, (∀ op ∈ ops, op.OnTable) →
    ((s.run ops).perform (.select i)).profile? = some student

theorem profile?_select {i : Nat} {student : Student} (hi : s.students[i]? = some student) :
    (s.perform (.select i)).profile? = some student := by
  obtain ⟨hlt, -⟩ := List.getElem?_eq_some_iff.1 hi
  rw [perform_select, selecting, if_pos hlt]
  exact hi

theorem Coherent.rowSelects (h : s.Coherent) {k i : Nat} {student : Student}
    (hpainted : s.visibleStudents[k]? = some (i, student)) (hvisible : s.visible[k]? = some i)
    (hi : s.students[i]? = some student) : s.RowSelects k i student where
  painted := paintedRow_eq hpainted
  link := by rw [nameLink?, hvisible, Option.map_some]
  click hshows := by
    have hop : s.operation? (.row k) = some (.select i) := by
      rw [operation?, if_pos hshows, nameLink?, hvisible, Option.map_some]
    rw [gesture, hop]
  stays ops hops := by
    rw [(h.perform (.select i)).run_onTable hops]
    exact profile?_select hi
  late ops hops := by
    rw [h.run_onTable hops]
    exact profile?_select hi

/-- **Selection and table are independent**, in every session that can be reached: interleaved runs
split, and the link in each visible row selects the student painted there for as long as only the
table's settings change. -/
theorem selection_independent (o : Opening) (before : List Operation) :
    (∀ (ops onTable : List Operation) (picks : List Nat), (∀ op ∈ onTable, op.OnTable) →
      Interleaving onTable (picks.map .select) ops →
      (o.session.run before).run ops = { o.session.run before with
        table := ((o.session.run before).run onTable).table
        visible := ((o.session.run before).run onTable).visible
        selected := ((o.session.run before).run (picks.map .select)).selected }) ∧
    ∀ k < (o.session.run before).visible.length, ∃ i student,
      (o.session.run before).visibleStudents[k]? = some (i, student) ∧
      (o.session.run before).RowSelects k i student := by
  have h := (coherent_opening o).run before
  refine ⟨fun _ _ _ => h.run_interleaving, fun k hk => ?_⟩
  obtain ⟨i, student, hpainted, hvisible, hi⟩ := h.exists_visible hk
  exact ⟨i, student, hpainted, h.rowSelects hpainted hvisible hi⟩

theorem selection_independent_twoZeros :
    (ofDataset ⟨twoZeros⟩).run [.clickHeading .name, .select 1, .search "ada"] =
      { ofDataset ⟨twoZeros⟩ with
        table := ((ofDataset ⟨twoZeros⟩).run [.clickHeading .name, .search "ada"]).table
        visible := ((ofDataset ⟨twoZeros⟩).run [.clickHeading .name, .search "ada"]).visible
        selected := ((ofDataset ⟨twoZeros⟩).run [.select 1]).selected } ∧
    (ofDataset ⟨twoZeros⟩).visible = [0, 1] ∧
    ∃ i student, (ofDataset ⟨twoZeros⟩).visibleStudents[1]? = some (i, student) ∧
      (ofDataset ⟨twoZeros⟩).RowSelects 1 i student := by
  have hvisible : (ofDataset ⟨twoZeros⟩).visible = [0, 1] := by decide +kernel
  have h := selection_independent (.dataset ⟨twoZeros⟩) []
  refine ⟨h.1 _ [.clickHeading .name, .search "ada"] [1] (by decide) ?_, hvisible, h.2 1 ?_⟩
  · exact .left (.right (.left .nil))
  · show 1 < (ofDataset ⟨twoZeros⟩).visible.length
    rw [hvisible]
    decide

end Session

end SkillBoard
