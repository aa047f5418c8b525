import SkillBoard.Proofs.Source.Loading

/-!
# The first fault is the one reported

A source is read in two phases, first its structure and then its records, one after the other and field
by field. So of all that is wrong with a source one thing is reported, and what comes behind it does not
matter.

* `Field.rule`: what each field asks of its cell. `student_eq_error_iff`: a record is refused for the first
  field, in the order of the schema, whose rule refuses its cell.
* `Record.FaultAfter`: what is wrong with a record behind others, an id of theirs included.
  `ofRecords_append_cons`: such a fault is reported if nothing is wrong before it, whatever follows.
* `Source.Misread`: what is wrong with the structure, which comes before any fault of a record.
* `load_firstFault`: the laws of fields, of rows and of structure.
-/

namespace SkillBoard

/-! ## Fields -/

/-- The rule of a field: the entry that its cell gives. -/
def Field.rule (field : Field) (c : Option Cell) : Except Fault Entry :=
  match field with
  | studentId => (Record.positive c).map .integer
  | name => (Record.text c).map .text
  | grade | persona => (Record.integer c).map .integer
  | comprehension | attention | focus | retention | assessmentScore | engagementTime =>
    (Record.number c).map .real

/-- The fault of a result that is one. -/
def faultOf {ε α : Type} : Except ε α → Option ε
  | .error e => some e
  | .ok _ => none

theorem faultOf_eq_some_iff {ε α : Type} {x : Except ε α} {e : ε} : faultOf x = some e ↔ x = .error e := by
  cases x <;> simp [faultOf]

namespace Record

/-- What is wrong with a field of the record. -/
def faultAt? (r : Record) (field : Field) : Option (Field × Fault) :=
  (faultOf (field.rule (r.cell? field.key))).map (field, ·)

/-- Reading a field and going on is at fault with that field, or else with what comes after it. -/
theorem faultOf_get_bind {α β : Type} {r : Record} {field : Field} {rule : Option Cell → Except Fault α}
    {k : α → Except (Field × Fault) β} {make : α → Entry} {rest : List Field}
    (hrule : ∀ c, field.rule c = (rule c).map make)
    (hrest : ∀ a, faultOf (k a) = rest.findSome? r.faultAt?) :
    faultOf (r.get field rule >>= k) = (field :: rest).findSome? r.faultAt? := by
  rw [List.findSome?_cons, faultAt?, hrule, get]
  cases rule (r.cell? field.key) with
  | error fault => rfl
  | ok a => exact hrest a

theorem faultOf_student (r : Record) : faultOf r.student = Field.all.findSome? r.faultAt? := by
  unfold student Field.all
  refine faultOf_get_bind (fun _ => rfl) fun id => ?_
  refine faultOf_get_bind (fun _ => rfl) fun name => ?_
  refine faultOf_get_bind (fun _ => rfl) fun grade => ?_
  refine faultOf_get_bind (fun _ => rfl) fun comprehension => ?_
  refine faultOf_get_bind (fun _ => rfl) fun attention => ?_
  refine faultOf_get_bind (fun _ => rfl) fun focus => ?_
  refine faultOf_get_bind (fun _ => rfl) fun retention => ?_
  refine faultOf_get_bind (fun _ => rfl) fun assessmentScore => ?_
  refine faultOf_get_bind (fun _ => rfl) fun engagementTime => ?_
  exact faultOf_get_bind (fun _ => rfl) fun persona => rfl

theorem faultAt?_eq_some_iff {r : Record} {f field : Field} {fault : Fault} :
    r.faultAt? f = some (field, fault) ↔ f = field ∧ field.rule (r.cell? field.key) = .error fault := by
  simp only [faultAt?, Option.map_eq_some_iff, faultOf_eq_some_iff, Prod.mk.injEq]
  constructor
  · rintro ⟨_, h, rfl, rfl⟩
    exact ⟨rfl, h⟩
  · rintro ⟨rfl, h⟩
    exact ⟨fault, h, rfl, rfl⟩

theorem faultAt?_eq_none_iff {r : Record} {f : Field} :
    r.faultAt? f = none ↔ ∃ entry, f.rule (r.cell? f.key) = .ok entry := by
  unfold faultAt?
  cases f.rule (r.cell? f.key) <;> simp [faultOf]

/-- A record gives a student if each of its cells gives an entry. -/
theorem exists_student_iff {r : Record} :
    (∃ s, r.student = .ok s) ↔ ∀ field : Field, ∃ entry, field.rule (r.cell? field.key) = .ok entry := by
  have hall (field : Field) : field ∈ Field.all := by cases field <;> decide
  have hnone : (∃ s, r.student = .ok s) ↔ faultOf r.student = none := by
    cases r.student <;> simp [faultOf]
  rw [hnone, faultOf_student, List.findSome?_eq_none_iff]
  simp only [faultAt?_eq_none_iff]
  exact ⟨fun h field => h field (hall field), fun h field _ => h field⟩

/-- **A record is refused for its first field at fault**, in the order of the schema. -/
theorem student_eq_error_iff {r : Record} {field : Field} {fault : Fault} :
    r.student = .error (field, fault) ↔
      ∃ before after, Field.all = before ++ field :: after ∧
        (∀ f ∈ before, ∃ entry, f.rule (r.cell? f.key) = .ok entry) ∧
        field.rule (r.cell? field.key) = .error fault := by
  rw [← faultOf_eq_some_iff, faultOf_student, List.findSome?_eq_some_iff]
  simp only [faultAt?_eq_some_iff, faultAt?_eq_none_iff]
  constructor
  · rintro ⟨before, f, after, hall, ⟨rfl, hfault⟩, hbefore⟩
    exact ⟨before, after, hall, hbefore, hfault⟩
  · rintro ⟨before, after, hall, hbefore, hfault⟩
    exact ⟨before, field, after, hall, ⟨rfl, hfault⟩, hbefore⟩

end Record

theorem Field.rule_eq_ok_iff {field : Field} {c : Option Cell} {s : Student} :
    field.rule c = .ok (s.entry field) ↔
      (∃ cell ∈ c, cell.Holds (s.entry field)) ∧ (field = .studentId → 0 < s.id) := by
  cases field <;>
    simp [rule, Student.entry, map_eq_ok_iff, positive_eq_ok_iff, integer_eq_ok_iff, number_eq_ok_iff,
      text_eq_ok_iff]

/-- A record gives the student whose entries the rules give. -/
theorem Record.student_eq_ok_iff_rule {r : Record} {s : Student} :
    r.student = .ok s ↔ ∀ field : Field, field.rule (r.cell? field.key) = .ok (s.entry field) := by
  simp only [Field.rule_eq_ok_iff, student_eq_ok_iff, Student.HeldBy, forall_and, forall_eq]

/-! ## Records -/

/-- What is wrong with a record behind others: the first fault of its fields, or else an id that is the
id of a record before it. -/
inductive Record.FaultAfter (earlier : List Record) (r : Record) : Field → Fault → Prop
  | refused {field : Field} {fault : Fault} (h : r.student = .error (field, fault)) :
    FaultAfter earlier r field fault
  | repeated {s t : Student} {q : Record} (hr : r.student = .ok s) (hq : q ∈ earlier)
    (ht : q.student = .ok t) (hid : t.id = s.id) : FaultAfter earlier r .studentId (.duplicate s.id)

/-- Behind records that give students the rows count on, and their ids are taken. -/
theorem readRecords_append {row : Nat} {ids : List Int} {before rest : List Record}
    {students : List Student} {e : LoadError} (h : readRecords row ids before = .ok students)
    (hrest : readRecords (row + before.length) ((students.map (·.id)).reverse ++ ids) rest = .error e) :
    readRecords row ids (before ++ rest) = .error e := by
  induction before generalizing row ids students with
  | nil =>
    obtain rfl := Except.ok.inj h
    exact hrest
  | cons r before ih =>
    obtain ⟨s, hs, h⟩ := bind_eq_ok_iff.1 h
    split at h
    · cases h
    next hid =>
      obtain ⟨others, hothers, h⟩ := bind_eq_ok_iff.1 h
      obtain rfl := Except.ok.inj h
      rw [List.map_cons, List.reverse_cons, List.append_assoc, List.length_cons,
        Nat.add_comm before.length, ← Nat.add_assoc] at hrest
      rw [List.cons_append, readRecords, hs]
      refine (if_neg hid).trans ?_
      rw [ih hothers hrest]
      rfl

theorem map_student {records : List Record} {students : List Student}
    (h : List.Forall₂ (fun r s => r.student = .ok s) records students) :
    records.map Record.student = students.map .ok := by
  rw [← List.forall₂_eq_eq_eq, List.forall₂_map_left_iff, List.forall₂_map_right_iff]
  exact h

theorem mem_students_iff {records : List Record} {students : List Student}
    (h : List.Forall₂ (fun r s => r.student = .ok s) records students) {s : Student} :
    s ∈ students ↔ ∃ r ∈ records, r.student = .ok s := by
  have hmem : (Except.ok s : Except (Field × Fault) Student) ∈ students.map .ok ↔ s ∈ students := by simp
  rw [← hmem, ← map_student h, List.mem_map]

theorem ofRecords_append_cons {before after : List Record} {r : Record} {d : Dataset} {field : Field}
    {fault : Fault} (h : Dataset.ofRecords before = .ok d) (hr : r.FaultAfter before field fault) :
    Dataset.ofRecords (before ++ r :: after) = .error (.malformed before.length field fault) := by
  obtain ⟨students, hstudents, -⟩ := map_eq_ok_iff.1 h
  obtain ⟨hall, -⟩ := readRecords_eq_ok_iff.1 hstudents
  have hrow : readRecords (0 + before.length) ((students.map (·.id)).reverse ++ []) (r :: after) =
      .error (.malformed before.length field fault) := by
    rw [Nat.zero_add, List.append_nil, readRecords]
    cases hr with
    | refused h =>
      rw [h]
      rfl
    | @repeated s t q hs hq ht hid =>
      have hmem : s.id ∈ (students.map (·.id)).reverse :=
        List.mem_reverse.2 (hid ▸ List.mem_map_of_mem ((mem_students_iff hall).2 ⟨q, hq, ht⟩))
      rw [hs]
      exact if_pos hmem
  rw [Dataset.ofRecords, readRecords_append hstudents hrow]
  rfl

/-- The dataset of records: their students, whose ids are different. -/
theorem ofRecords_eq_ok_iff_students {records : List Record} {d : Dataset} :
    Dataset.ofRecords records = .ok d ↔
      List.Forall₂ (fun r s => r.student = .ok s) records d.students ∧ (d.students.map (·.id)).Nodup := by
  rw [Dataset.ofRecords, map_eq_ok_iff]
  constructor
  · rintro ⟨students, h, rfl⟩
    obtain ⟨hall, hnodup, -⟩ := readRecords_eq_ok_iff.1 h
    exact ⟨hall, hnodup⟩
  · rintro ⟨hall, hnodup⟩
    exact ⟨_, readRecords_eq_ok_iff.2 ⟨hall, hnodup, fun s _ => List.not_mem_nil⟩, rfl⟩

/-- Nothing is wrong with any record behind those before it. -/
def Faultless (records : List Record) : Prop :=
  ∀ before r after, records = before ++ r :: after → ∀ field fault, ¬ r.FaultAfter before field fault

/-- One record more. -/
theorem ofRecords_concat {records : List Record} {r : Record} {d : Dataset}
    (h : Dataset.ofRecords records = .ok d) (hr : ∀ field fault, ¬ r.FaultAfter records field fault) :
    ∃ d', Dataset.ofRecords (records ++ [r]) = .ok d' := by
  obtain ⟨hall, hnodup⟩ := ofRecords_eq_ok_iff_students.1 h
  cases hs : r.student with
  | error e => exact absurd (.refused hs) (hr e.1 e.2)
  | ok s =>
    have hnew : s.id ∉ d.students.map (·.id) := by
      intro hmem
      obtain ⟨t, ht, hid⟩ := List.mem_map.1 hmem
      obtain ⟨q, hq, hqt⟩ := (mem_students_iff hall).1 ht
      exact hr _ _ (.repeated hs hq hqt hid)
    refine ⟨⟨d.students ++ [s]⟩, ofRecords_eq_ok_iff_students.2 ⟨?_, ?_⟩⟩
    · exact List.rel_append hall (.cons hs .nil)
    · rw [List.map_append, List.map_singleton, ← List.concat_eq_append]
      exact hnodup.concat hnew

theorem exists_ofRecords_or_faultAfter (records : List Record) :
    (∃ d, Dataset.ofRecords records = .ok d) ∨
      ∃ before r after field fault d, records = before ++ r :: after ∧
        Dataset.ofRecords before = .ok d ∧ r.FaultAfter before field fault := by
  induction records using List.reverseRecOn with
  | nil => exact .inl ⟨⟨[]⟩, rfl⟩
  | append_singleton records r ih =>
    rcases ih with ⟨d, h⟩ | ⟨before, q, after, field, fault, d, rfl, h, hq⟩
    · by_cases hr : ∃ field fault, r.FaultAfter records field fault
      · obtain ⟨field, fault, hr⟩ := hr
        exact .inr ⟨records, r, [], field, fault, d, rfl, h, hr⟩
      · exact .inl (ofRecords_concat h fun field fault hfault => hr ⟨field, fault, hfault⟩)
    · exact .inr ⟨before, q, after ++ [r], field, fault, d, by simp, h, hq⟩

theorem faultless_iff {records : List Record} :
    Faultless records ↔ ∃ d, Dataset.ofRecords records = .ok d := by
  constructor
  · intro h
    rcases exists_ofRecords_or_faultAfter records with hd | ⟨before, r, after, field, fault, d, heq, -, hr⟩
    · exact hd
    · exact absurd hr (h before r after heq field fault)
  · rintro ⟨d, h⟩ before r after rfl field fault hr
    rcases exists_ofRecords_or_faultAfter before with ⟨d', hbefore⟩ | ⟨b, q, a, f, t, d', rfl, hb, hq⟩
    · rw [ofRecords_append_cons hbefore hr] at h
      cases h
    · rw [List.append_assoc, List.cons_append, ofRecords_append_cons hb hq] at h
      cases h

/-- **Records give a dataset if all of them give students and no id is there twice, and else the first
fault**: the one of the first row where something is wrong. -/
theorem ofRecords_eq_error_iff {records : List Record} {e : LoadError} :
    Dataset.ofRecords records = .error e ↔
      ∃ before r after field fault, records = before ++ r :: after ∧ Faultless before ∧
        r.FaultAfter before field fault ∧ e = .malformed before.length field fault := by
  constructor
  · intro h
    rcases exists_ofRecords_or_faultAfter records with ⟨d, hd⟩ | ⟨before, r, after, field, fault, d, rfl, hd, hr⟩
    · rw [hd] at h
      cases h
    · rw [ofRecords_append_cons hd hr] at h
      exact ⟨before, r, after, field, fault, rfl, faultless_iff.2 ⟨d, hd⟩, hr, (Except.error.inj h).symm⟩
  · rintro ⟨before, r, after, field, fault, rfl, hbefore, hr, rfl⟩
    obtain ⟨d, hd⟩ := faultless_iff.1 hbefore
    exact ofRecords_append_cons hd hr

/-- What follows a record at fault does not matter, whatever is wrong before it. -/
theorem ofRecords_after {before after : List Record} {r : Record} {field : Field} {fault : Fault}
    (hr : r.FaultAfter before field fault) (rest : List Record) :
    Dataset.ofRecords (before ++ r :: after) = Dataset.ofRecords (before ++ r :: rest) := by
  rcases exists_ofRecords_or_faultAfter before with ⟨d, hd⟩ | ⟨b, q, a, f, t, d, rfl, hb, hq⟩
  · rw [ofRecords_append_cons hd hr, ofRecords_append_cons hd hr]
  · rw [List.append_assoc, List.append_assoc, List.cons_append, List.cons_append,
      ofRecords_append_cons hb hq, ofRecords_append_cons hb hq]

/-! ## Structure -/

namespace Source

/-- The fields of a CSV row are so many texts. -/
def CsvCells (width : Nat) (fields : List Csv.Field) (cells : List String) : Prop :=
  fields.mapM Text.Utf8.decode? = some cells ∧ cells.length = width

/-- What is wrong with the structure of a source. -/
inductive Misread (w : Wording) : Source → LoadError → Prop
  | notJson {text : String} (h : Json.parse? text = none) :
    Misread w (.json text) (.jsonNotParsed (w.notJson text))
  | notList {text : String} {v : Json} (h : Json.parse? text = some v) (hv : ∀ items, v ≠ .list items) :
    Misread w (.json text) .jsonNotList
  | notRecord {text : String} {before : List (List (String × Json))} {v : Json} {after : List Json}
    (h : Json.parse? text = some (.list (before.map .record ++ v :: after)))
    (hv : ∀ members, v ≠ .record members) : Misread w (.json text) (.jsonNotRecord before.length)
  | header {bytes : List UInt8} {header : List Csv.Field} {rows : List (List Csv.Field)}
    (h : Csv.rows bytes = header :: rows) (hheader : header.mapM Text.Utf8.decode? = none) :
    Misread w (.csv bytes) (.csvHeader (w.csvHeader bytes))
  | row {bytes : List UInt8} {header : List Csv.Field} {names : List String}
    {before : List (List Csv.Field)} {table : List (List String)} {fields : List Csv.Field}
    {after : List (List Csv.Field)} (h : Csv.rows bytes = header :: (before ++ fields :: after))
    (hnames : header.mapM Text.Utf8.decode? = some names)
    (hbefore : List.Forall₂ (CsvCells names.length) before table)
    (hfields : ∀ cells, ¬ CsvCells names.length fields cells) :
    Misread w (.csv bytes) (.csvRow before.length (w.csvRow bytes before.length))

/-- The records of a source whose structure is in order. -/
inductive Reads : Source → List Record → Prop
  | json {text : String} {items : List (List (String × Json))}
    (h : Json.parse? text = some (.list (items.map .record))) :
    Reads (.json text) (items.map fun members => members.map fun (key, v) => (key, Cell.ofJson v))
  | csvEmpty {bytes : List UInt8} (h : Csv.rows bytes = []) : Reads (.csv bytes) []
  | csv {bytes : List UInt8} {header : List Csv.Field} {names : List String}
    {rows : List (List Csv.Field)} {table : List (List String)} (h : Csv.rows bytes = header :: rows)
    (hnames : header.mapM Text.Utf8.decode? = some names)
    (htable : List.Forall₂ (CsvCells names.length) rows table) :
    Reads (.csv bytes) (table.map fun cells => (names.map Text.trim).zip (cells.map Cell.text))
  | columns (cs : List Column) : Reads (.columns cs) (Column.records cs)

theorem jsonRecords_error {v : Json} (hv : ∀ members, v ≠ .record members) (row : Nat)
    (before : List (List (String × Json))) (after : List Json) :
    jsonRecords row (before.map .record ++ v :: after) = .error (.jsonNotRecord (row + before.length)) := by
  induction before generalizing row with
  | nil =>
    cases v with
    | record members => exact absurd rfl (hv members)
    | _ => rfl
  | cons members before ih =>
    rw [List.map_cons, List.cons_append, jsonRecords, ih, Nat.add_assoc, Nat.add_comm 1]
    rfl

section

variable {cause : Nat → String} {names : List String}

theorem csvRecords_error {before : List (List Csv.Field)} {table : List (List String)}
    {fields : List Csv.Field} (hbefore : List.Forall₂ (CsvCells names.length) before table)
    (hfields : ∀ cells, ¬ CsvCells names.length fields cells) (row : Nat)
    (after : List (List Csv.Field)) :
    csvRecords cause names row (before ++ fields :: after) =
      .error (.csvRow (row + before.length) (cause (row + before.length))) := by
  induction hbefore generalizing row with
  | nil =>
    rw [List.nil_append, csvRecords]
    split
    · rfl
    next cells hcells => exact if_neg fun hlength => hfields cells ⟨hcells, hlength⟩
  | cons hcells _ ih =>
    rw [List.cons_append, csvRecords, hcells.1]
    simp only [if_pos hcells.2, ih, List.length_cons, Nat.add_assoc, Nat.add_comm 1]
    rfl

theorem csvRecords_of_cells {rows : List (List Csv.Field)} {table : List (List String)}
    (h : List.Forall₂ (CsvCells names.length) rows table) (row : Nat) :
    csvRecords cause names row rows = .ok (table.map fun cells => names.zip (cells.map Cell.text)) := by
  induction h generalizing row with
  | nil => rfl
  | cons hcells _ ih =>
    rw [csvRecords, hcells.1]
    simp only [if_pos hcells.2, ih]
    rfl

end

theorem Misread.load {w : Wording} {src : Source} {e : LoadError} (h : src.Misread w e) :
    src.load w = .error e := by
  cases h with
  | notJson h => rw [Source.load, loadJson, h]
  | @notList _ v h hv =>
    rw [Source.load, loadJson, h]
    cases v with
    | list items => exact absurd rfl (hv items)
    | _ => rfl
  | notRecord h hv =>
    rw [Source.load, loadJson, h]
    simp only [jsonRecords_error hv 0, Nat.zero_add]
    rfl
  | header h hheader =>
    rw [Source.load, loadCsv, h]
    simp only [hheader]
  | @row _ _ names before table _ after h hnames hbefore hfields =>
    rw [← List.length_map Text.trim] at hbefore hfields
    rw [Source.load, loadCsv, h]
    simp only [hnames, csvRecords_error hbefore hfields 0 after, Nat.zero_add]
    rfl

theorem Reads.load {w : Wording} {src : Source} {records : List Record} (h : src.Reads records) :
    src.load w = Dataset.ofRecords records := by
  cases h with
  | json h => exact loadJson_of_records h
  | csvEmpty h =>
    rw [Source.load, loadCsv, h]
    rfl
  | csv h hnames htable =>
    rw [← List.length_map Text.trim] at htable
    rw [Source.load, loadCsv, h]
    simp only [hnames, csvRecords_of_cells htable 0]
    rfl
  | columns cs => rfl

/-- Either each element has a partner, or there is a first one that has none. -/
theorem exists_forall₂_or_first {α β : Type} (R : α → β → Prop) (xs : List α) :
    (∃ ys, List.Forall₂ R xs ys) ∨
      ∃ before ys x after, xs = before ++ x :: after ∧ List.Forall₂ R before ys ∧ ∀ y, ¬ R x y := by
  induction xs with
  | nil => exact .inl ⟨[], .nil⟩
  | cons x xs ih =>
    by_cases hx : ∃ y, R x y
    · obtain ⟨y, hy⟩ := hx
      rcases ih with ⟨ys, hys⟩ | ⟨before, ys, x', after, rfl, hbefore, hx'⟩
      · exact .inl ⟨y :: ys, .cons hy hys⟩
      · exact .inr ⟨x :: before, y :: ys, x', after, rfl, .cons hy hbefore, hx'⟩
    · exact .inr ⟨[], [], x, xs, rfl, .nil, fun y hy => hx ⟨y, hy⟩⟩

theorem exists_misread_or_reads (w : Wording) (src : Source) :
    (∃ e, src.Misread w e) ∨ ∃ records, src.Reads records := by
  cases src with
  | json text =>
    have hlist {items : List Json} {list : List (List (String × Json))}
        (h : List.Forall₂ (fun v members => v = Json.record members) items list) :
        items = list.map .record := by
      rw [← List.forall₂_eq_eq_eq, List.forall₂_map_right_iff]
      exact h
    cases h : Json.parse? text with
    | none => exact .inl ⟨_, .notJson h⟩
    | some v =>
      by_cases hv : ∃ items, v = .list items
      · obtain ⟨items, rfl⟩ := hv
        rcases exists_forall₂_or_first (fun v members => v = Json.record members) items with
          ⟨list, hitems⟩ | ⟨before, list, v, after, rfl, hbefore, hv⟩
        · obtain rfl := hlist hitems
          exact .inr ⟨_, .json h⟩
        · obtain rfl := hlist hbefore
          exact .inl ⟨_, .notRecord h hv⟩
      · exact .inl ⟨_, .notList h fun items hitems => hv ⟨items, hitems⟩⟩
  | csv bytes =>
    cases h : Csv.rows bytes with
    | nil => exact .inr ⟨_, .csvEmpty h⟩
    | cons header rows =>
      cases hnames : header.mapM Text.Utf8.decode? with
      | none => exact .inl ⟨_, .header h hnames⟩
      | some names =>
        rcases exists_forall₂_or_first (CsvCells names.length) rows with
          ⟨table, hrows⟩ | ⟨before, table, fields, after, rfl, hbefore, hfields⟩
        · exact .inr ⟨_, .csv h hnames hrows⟩
        · exact .inl ⟨_, .row h hnames hbefore hfields⟩
  | columns cs => exact .inr ⟨_, .columns cs⟩

end Source

/-! ## The laws -/

/-- A record gives the student of its cells, or the first field at fault. -/
structure Record.FirstField (r : Record) : Prop where
  ok : ∀ s, r.student = .ok s ↔ ∀ field : Field, field.rule (r.cell? field.key) = .ok (s.entry field)
  error : ∀ field fault, r.student = .error (field, fault) ↔
    ∃ before after, Field.all = before ++ field :: after ∧
      (∀ f ∈ before, ∃ entry, f.rule (r.cell? f.key) = .ok entry) ∧
      field.rule (r.cell? field.key) = .error fault

/-- Records give their students, or the fault of the first row at fault: of its own fields before its id,
and whatever follows. -/
structure FirstRow (records : List Record) : Prop where
  ok : ∀ d, Dataset.ofRecords records = .ok d ↔
    List.Forall₂ (fun r s => r.student = .ok s) records d.students ∧ (d.students.map (·.id)).Nodup
  error : ∀ e, Dataset.ofRecords records = .error e ↔
    ∃ before r after field fault, records = before ++ r :: after ∧ Faultless before ∧
      r.FaultAfter before field fault ∧ e = .malformed before.length field fault
  after : ∀ (r : Record) field fault, r.FaultAfter records field fault → ∀ after rest,
    Dataset.ofRecords (records ++ r :: after) = Dataset.ofRecords (records ++ r :: rest)

/-- A source is refused for its structure before any of its records is looked at. -/
structure Source.StructureFirst (w : Wording) (src : Source) : Prop where
  misread : ∀ e, src.Misread w e → src.load w = .error e
  reads : ∀ records, src.Reads records → src.load w = Dataset.ofRecords records
  total : (∃ e, src.Misread w e) ∨ ∃ records, src.Reads records

theorem Record.firstField (r : Record) : r.FirstField where
  ok _ := student_eq_ok_iff_rule
  error _ _ := student_eq_error_iff

theorem firstRow (records : List Record) : FirstRow records where
  ok _ := ofRecords_eq_ok_iff_students
  error _ := ofRecords_eq_error_iff
  after _ _ _ hr _ rest := ofRecords_after hr rest

namespace Source

theorem structureFirst (w : Wording) (src : Source) : src.StructureFirst w where
  misread _ := Misread.load
  reads _ := Reads.load
  total := exists_misread_or_reads w src

/-- **The first fault is the one reported**, of the fields of a record, of the records of a source and of a
source as a whole. -/
theorem load_firstFault (w : Wording) (src : Source) (records : List Record) (r : Record) :
    r.FirstField ∧ FirstRow records ∧ src.StructureFirst w :=
  ⟨r.firstField, firstRow records, structureFirst w src⟩

/-- A record with nothing wrong. -/
def soundRecord : Record :=
  [("student_id", .number 7), ("name", .text "Ada"), ("class", .text " 5 "), ("comprehension", .number 50),
    ("attention", .number 50), ("focus", .number 50), ("retention", .number 50),
    ("assessment_score", .text "62.5"), ("engagement_time", .number 20), ("persona", .number 1)]

/-- A record with the same id, whose class is no number and whose metrics are missing. -/
def wrongRecord : Record := [("student_id", .text "7"), ("name", .text "Ben"), ("class", .text "five")]

theorem load_firstFault_wrongRecord :
    (∀ after, Dataset.ofRecords (soundRecord :: wrongRecord :: after) =
      .error (.malformed 1 .grade (.notNumber "five"))) ∧
    (json "[{}, 5]").load .plain = .error (.jsonNotRecord 1) := by
  have law (after : List Record) :=
    load_firstFault .plain (.json "[{}, 5]") (soundRecord :: wrongRecord :: after) wrongRecord
  constructor
  · intro after
    obtain ⟨hrecord, hrecords, -⟩ := law after
    have hsound : Faultless [soundRecord] :=
      faultless_iff.2 ⟨⟨[⟨7, "Ada", 5, 50, 50, 50, 50, 62.5, 20, 1⟩]⟩, by decide +kernel⟩
    have hwrong : wrongRecord.student = .error (.grade, .notNumber "five") := by
      have hid : Record.positive (wrongRecord.cell? Field.studentId.key) = .ok 7 := by decide +kernel
      refine (hrecord.error _ _).2 ⟨[.studentId, .name], _, rfl, fun f hf => ?_, rfl⟩
      rcases List.mem_cons.1 hf with rfl | hf
      · refine ⟨.integer 7, ?_⟩
        rw [Field.rule, hid]
        rfl
      · obtain rfl := List.mem_singleton.1 hf
        exact ⟨.text "Ben", rfl⟩
    exact (hrecords.error _).2 ⟨[soundRecord], wrongRecord, after, _, _, rfl, hsound, .refused hwrong, rfl⟩
  · obtain ⟨-, -, hstructure⟩ := law []
    have hparse : Json.parse? "[{}, 5]" = some (.list ([[]].map .record ++ .int 5 :: [])) := rfl
    exact hstructure.misread _ (.notRecord hparse fun _ => nofun)

end Source

end SkillBoard
