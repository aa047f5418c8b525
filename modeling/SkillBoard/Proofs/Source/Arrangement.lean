import SkillBoard.Proofs.Source.Agreement

/-!
# The arrangement of a source does not count

Fields are found by their keys, and faults are looked for in the order of the schema. So it makes no
difference in which order a source has its keys or columns, nor what stands under keys that no field has.

* `Extends`: the same members in any order, and more under foreign keys. `Record.student_of_extends`: such
  a record gives the same student, or the same fault.
* `Sheet`: a CSV file by columns. `Sheet.Extends`: the same columns in any order, and more.
* `load_of_extends`: loading gives the same, in JSON with every record arranged in its own way. Only what
  the reader below says of a CSV file that it refuses may change, as it tells places in the file.
-/

namespace SkillBoard

/-- A key that no field has. -/
def Foreign (key : String) : Prop := ∀ field : Field, key ≠ field.key

instance (key : String) : Decidable (Foreign key) :=
  decidable_of_iff (∀ field ∈ Field.all, key ≠ field.key)
    ⟨fun h field => h field (by cases field <;> decide), fun h field _ => h field⟩

/-! ## Members of a record -/

section Members

variable {α β : Type}

/-- The members that count: of several under one key the last. -/
def counted (members : List (String × α)) : List (String × α) := members.pwFilter fun p q => p.1 ≠ q.1

theorem nodup_counted (members : List (String × α)) : ((counted members).map Prod.fst).Nodup :=
  List.pairwise_map.2 (List.pairwise_pwFilter members)

/-- Where no key occurs twice, all members count. -/
theorem counted_eq_self {members : List (String × α)} (h : (members.map Prod.fst).Nodup) :
    counted members = members :=
  List.pwFilter_eq_self.2 (List.pairwise_map.1 h)

theorem counted_map (f : α → β) (members : List (String × α)) :
    counted (members.map fun p => (p.1, f p.2)) = (counted members).map fun p => (p.1, f p.2) :=
  List.pwFilter_map _ _

/-- `after` has what counts of `before`, in any order, and further members under foreign keys. -/
def Extends (before after : List (String × α)) : Prop :=
  ∃ extra, (counted after).Perm (counted before ++ extra) ∧ ∀ p ∈ extra, Foreign p.1

theorem Extends.map {before after : List (String × α)} (h : Extends before after) (f : α → β) :
    Extends (before.map fun p => (p.1, f p.2)) (after.map fun p => (p.1, f p.2)) := by
  obtain ⟨extra, hperm, hforeign⟩ := h
  refine ⟨extra.map fun p => (p.1, f p.2), ?_, fun p hp => ?_⟩
  · rw [counted_map, counted_map, ← List.map_append]
    exact hperm.map _
  · obtain ⟨q, hq, rfl⟩ := List.mem_map.1 hp
    exact hforeign q hq

end Members

namespace Record

theorem cell?_cons (p : String × Cell) (r : Record) (key : String) :
    cell? (p :: r) key = (r.cell? key).or (if key = p.1 then some p.2 else none) := by
  have hlast : [p].lookup key = if key = p.1 then some p.2 else none := by
    rw [List.lookup_eq_findSome?, List.findSome?_singleton]
    simp only [beq_iff_eq]
  rw [cell?, List.reverse_cons, List.lookup_append, hlast]
  rfl

theorem isSome_cell? {r : Record} {q : String × Cell} (hq : q ∈ r) : (r.cell? q.1).isSome = true :=
  List.lookup_isSome_iff.2 ⟨q, List.mem_reverse.2 hq, beq_self_eq_true _⟩

/-- Only members that count are found. -/
theorem cell?_counted (r : Record) : cell? (counted r) = r.cell? := by
  induction r with
  | nil => rfl
  | cons p r ih =>
    funext key
    by_cases hp : ∀ q ∈ counted r, p.1 ≠ q.1
    · rw [counted, List.pwFilter_cons_of_pos hp, ← counted, cell?_cons, cell?_cons, ih]
    · rw [counted, List.pwFilter_cons_of_neg hp, ← counted, ih, cell?_cons]
      split_ifs with hkey
      · -- a later member has the key of `p`, and it is found before `p`
        push Not at hp
        obtain ⟨q, hq, hpq⟩ := hp
        have hfound : (cell? r key).isSome = true :=
          hkey ▸ hpq ▸ isSome_cell? ((List.pwFilter_sublist r).mem hq)
        rw [Option.or_of_isSome hfound]
      · rw [Option.or_none]

/-- The cells under keys of fields. -/
def known (r : Record) : Record := r.filter fun p => ¬ Foreign p.1

theorem cell?_known (r : Record) (field : Field) : r.known.cell? field.key = r.cell? field.key := by
  induction r with
  | nil => rfl
  | cons p r ih =>
    by_cases hp : Foreign p.1
    · rw [known, List.filter_cons_of_neg (by simpa using hp), ← known, ih, cell?_cons,
        if_neg (hp field).symm, Option.or_none]
    · rw [known, List.filter_cons_of_pos (by simpa using hp), ← known, cell?_cons, cell?_cons, ih]

theorem student_known (r : Record) : r.known.student = r.student := by
  unfold student get
  simp only [cell?_known]

/-- Other cells and another order make no difference where no key of a field occurs twice. -/
theorem student_of_perm {r r' extra : Record} (hr : (r.map Prod.fst).Nodup) (h : r'.Perm (r ++ extra))
    (hextra : ∀ p ∈ extra, Foreign p.1) : r'.student = r.student := by
  have hforeign : known extra = [] := List.filter_eq_nil_iff.2 fun p hp => by simpa using hextra p hp
  have hknown : r'.known.Perm r.known := by
    have hfilter := h.filter fun p => ¬ Foreign p.1
    rw [List.filter_append] at hfilter
    change r'.known.Perm (r.known ++ known extra) at hfilter
    rwa [hforeign, List.append_nil] at hfilter
  have hnodup : (r.known.map Prod.fst).Nodup := (List.filter_sublist.map Prod.fst).nodup hr
  rw [← student_known r', ← student_known r, student_congr (cell?_eq_of_perm hknown hnodup)]

theorem student_of_extends {r r' : Record} (h : Extends r r') : r'.student = r.student := by
  obtain ⟨extra, hperm, hextra⟩ := h
  rw [← student_congr (cell?_counted r'), ← student_congr (cell?_counted r)]
  exact student_of_perm (nodup_counted r) hperm hextra

end Record

theorem loadJson_of_extends {w : Wording} {text text' : String} {items items' : List (List (String × Json))}
    (htext : Json.parse? text = some (.list (items.map .record)))
    (htext' : Json.parse? text' = some (.list (items'.map .record)))
    (h : List.Forall₂ Extends items items') : loadJson w text' = loadJson w text := by
  rw [loadJson_of_records htext, loadJson_of_records htext']
  refine ofRecords_congr ?_
  rw [List.map_map, List.map_map]
  clear htext htext'
  induction h with
  | nil => rfl
  | cons hitem _ ih =>
    rw [List.map_cons, List.map_cons, ih]
    exact congrArg₂ List.cons (Record.student_of_extends (hitem.map Cell.ofJson)) rfl

/-! ## Columns of a CSV file -/

/-- The error without the words of the reader or the system below. -/
def LoadError.withoutCause : LoadError → LoadError
  | .jsonNotRead _ => .jsonNotRead ""
  | .jsonNotParsed _ => .jsonNotParsed ""
  | .csvNotOpened _ => .csvNotOpened ""
  | .csvHeader _ => .csvHeader ""
  | .csvRow row _ => .csvRow row ""
  | .columnsNotOpened _ => .columnsNotOpened ""
  | .columnsNotRead step _ => .columnsNotRead step ""
  | .inSample e => .inSample e.withoutCause
  | e => e

/-- The octets of each field are a text. -/
def AllTexts (fields : List Csv.Field) : Prop := ∀ f ∈ fields, (Text.Utf8.decode? f).isSome = true

instance (fields : List Csv.Field) : Decidable (AllTexts fields) :=
  inferInstanceAs (Decidable (∀ f ∈ fields, _))

/-- The text of a field; of octets that are none it is not asked. -/
def textOf (f : Csv.Field) : String := (Text.Utf8.decode? f).getD ""

theorem mapM_decode? (fields : List Csv.Field) :
    fields.mapM Text.Utf8.decode? = if AllTexts fields then some (fields.map textOf) else none := by
  induction fields with
  | nil => rfl
  | cons f fields ih =>
    rw [List.mapM_cons, ih]
    cases hf : Text.Utf8.decode? f with
    | none =>
      have hnot : ¬ AllTexts (f :: fields) := fun h => by simpa [hf] using h f List.mem_cons_self
      rw [if_neg hnot]
      rfl
    | some s =>
      have hiff : AllTexts (f :: fields) ↔ AllTexts fields := by simp [AllTexts, hf]
      by_cases h : AllTexts fields
      · rw [if_pos h, if_pos (hiff.2 h), List.map_cons, textOf, hf]
        rfl
      · rw [if_neg h, if_neg (mt hiff.1 h)]
        rfl

theorem allTexts_iff_of_perm {fields fields' extra : List Csv.Field} (h : fields'.Perm (fields ++ extra))
    (hextra : AllTexts extra) : AllTexts fields' ↔ AllTexts fields := by
  have hmem (f : Csv.Field) : f ∈ fields' ↔ f ∈ fields ∨ f ∈ extra := by
    rw [h.mem_iff, List.mem_append]
  simp only [AllTexts, hmem, or_imp, forall_and]
  exact and_iff_left hextra

/-- The octets of a CSV file by columns: each has a name, and a field for each row. -/
abbrev Sheet (height : Nat) := List (Csv.Field × (Fin height → Csv.Field))

namespace Sheet

variable {height : Nat}

/-- The key of a column: its name without the blanks around it. -/
def key (column : Csv.Field × (Fin height → Csv.Field)) : String := Text.trim (textOf column.1)

def names (s : Sheet height) : List Csv.Field := s.map Prod.fst

def row (s : Sheet height) (i : Fin height) : List Csv.Field := s.map fun column => column.2 i

/-- The rows of a file that holds the sheet, its header first. -/
def rows (s : Sheet height) : List (List Csv.Field) := s.names :: (List.finRange height).map s.row

/-- `after` has the columns of `before` in any order, and further columns of texts under foreign keys. -/
def Extends (before after : Sheet height) : Prop :=
  ∃ extra : Sheet height, after.Perm (before ++ extra) ∧ AllTexts extra.names ∧
    (∀ i, AllTexts (extra.row i)) ∧ ∀ column ∈ extra, Foreign (key column)

/-- The record of a row whose fields are texts. -/
def record (s : Sheet height) (i : Fin height) : Record :=
  s.map fun column => (key column, .text (textOf (column.2 i)))

theorem csvRecords_cons (cause : Nat → String) (s : Sheet height) (i : Fin height) (n : Nat)
    (rest : List (List Csv.Field)) :
    csvRecords cause (s.map key) n (s.row i :: rest) =
      if AllTexts (s.row i) then (csvRecords cause (s.map key) (n + 1) rest).map (s.record i :: ·)
      else .error (.csvRow n (cause n)) := by
  rw [csvRecords, mapM_decode?]
  by_cases h : AllTexts (s.row i)
  · rw [if_pos h, if_pos h]
    simp only [row, List.map_map, List.length_map, if_true, List.zip_map', record]
    rfl
  · rw [if_neg h, if_neg h]

theorem loadCsv_rows {w : Wording} {s : Sheet height} {bytes : List UInt8}
    (h : Csv.rows bytes = s.rows) :
    loadCsv w bytes =
      if AllTexts s.names then
        csvRecords (w.csvRow bytes) (s.map key) 0 ((List.finRange height).map s.row) >>= Dataset.ofRecords
      else .error (.csvHeader (w.csvHeader bytes)) := by
  have hkeys : (s.names.map textOf).map Text.trim = s.map key := by
    rw [names, List.map_map, List.map_map]
    rfl
  rw [loadCsv, h, rows]
  simp only [mapM_decode?]
  by_cases hnames : AllTexts s.names
  · rw [if_pos hnames, if_pos hnames]
    simp only [hkeys]
  · rw [if_neg hnames, if_neg hnames]

section

variable {s s' : Sheet height}

theorem Extends.allTexts_names_iff (h : s.Extends s') : AllTexts s'.names ↔ AllTexts s.names := by
  obtain ⟨extra, hperm, hnames, -, -⟩ := h
  have hfields := hperm.map Prod.fst
  rw [List.map_append] at hfields
  exact allTexts_iff_of_perm hfields hnames

theorem Extends.allTexts_row_iff (h : s.Extends s') (i : Fin height) :
    AllTexts (s'.row i) ↔ AllTexts (s.row i) := by
  obtain ⟨extra, hperm, -, htexts, -⟩ := h
  have hfields := hperm.map fun column => column.2 i
  rw [List.map_append] at hfields
  exact allTexts_iff_of_perm hfields (htexts i)

theorem Extends.student_record (h : s.Extends s') (hdistinct : (s.map key).Nodup) (i : Fin height) :
    (s'.record i).student = (s.record i).student := by
  obtain ⟨extra, hperm, -, -, hforeign⟩ := h
  have hkeys : (s.record i).map Prod.fst = s.map key := List.map_map
  have hcells : (s'.record i).Perm (s.record i ++ extra.record i) := by
    rw [record, record, record, ← List.map_append]
    exact hperm.map _
  refine Record.student_of_perm (hkeys ▸ hdistinct) hcells fun p hp => ?_
  obtain ⟨column, hcolumn, rfl⟩ := List.mem_map.1 hp
  exact hforeign column hcolumn

/-- The students of records, or why there are none, but for the words of the reader below. -/
def outcome (x : Except LoadError (List Record)) :
    Except LoadError (List (Except (Field × Fault) Student)) :=
  (x.map (List.map Record.student)).mapError LoadError.withoutCause

theorem outcome_map_cons (r : Record) (x : Except LoadError (List Record)) :
    outcome (x.map (r :: ·)) = (outcome x).map (r.student :: ·) := by
  cases x <;> rfl

theorem ofRecords_of_outcome {x x' : Except LoadError (List Record)} (h : outcome x' = outcome x) :
    (x' >>= Dataset.ofRecords).mapError LoadError.withoutCause =
      (x >>= Dataset.ofRecords).mapError LoadError.withoutCause := by
  cases x with
  | error e =>
    cases x' with
    | error e' => exact congrArg Except.error (Except.error.inj h)
    | ok records' => cases h
  | ok records =>
    cases x' with
    | error e' => cases h
    | ok records' => exact congrArg (Except.mapError _) (ofRecords_congr (Except.ok.inj h))

/-- Reading stops at the same row, or gives records that give the same. -/
theorem Extends.outcome_csvRecords (h : s.Extends s') (hdistinct : (s.map key).Nodup)
    (cause cause' : Nat → String) (places : List (Fin height)) (n : Nat) :
    outcome (csvRecords cause' (s'.map key) n (places.map s'.row)) =
      outcome (csvRecords cause (s.map key) n (places.map s.row)) := by
  induction places generalizing n with
  | nil => rfl
  | cons i places ih =>
    rw [List.map_cons, List.map_cons, csvRecords_cons, csvRecords_cons]
    simp only [h.allTexts_row_iff i]
    by_cases htexts : AllTexts (s.row i)
    · rw [if_pos htexts, if_pos htexts, outcome_map_cons, outcome_map_cons, ih,
        h.student_record hdistinct]
    · rw [if_neg htexts, if_neg htexts]
      rfl

theorem loadCsv_of_extends {w : Wording} {bytes bytes' : List UInt8} (hbytes : Csv.rows bytes = s.rows)
    (hbytes' : Csv.rows bytes' = s'.rows) (hdistinct : (s.map key).Nodup) (h : s.Extends s') :
    (loadCsv w bytes').mapError LoadError.withoutCause =
      (loadCsv w bytes).mapError LoadError.withoutCause := by
  rw [loadCsv_rows hbytes, loadCsv_rows hbytes']
  simp only [h.allTexts_names_iff]
  by_cases hnames : AllTexts s.names
  · rw [if_pos hnames, if_pos hnames]
    exact ofRecords_of_outcome (h.outcome_csvRecords hdistinct _ _ _ 0)
  · rw [if_neg hnames, if_neg hnames]
    rfl

end

/-- Each file whose rows are as wide as its header holds a sheet. -/
theorem exists_rows_eq (header : List Csv.Field) (table : List (List Csv.Field))
    (h : ∀ fields ∈ table, fields.length = header.length) :
    ∃ s : Sheet table.length, s.rows = header :: table := by
  refine ⟨List.ofFn fun j => (header.get j, fun i => (table.get i)[j]?.getD []), ?_⟩
  have hrow (i : Fin table.length) :
      (List.ofFn fun j : Fin header.length => (table.get i)[j]?.getD []) = table.get i := by
    have hlength := h _ (List.get_mem table i)
    refine List.ext_getElem (by rw [List.length_ofFn, hlength]) fun j hj hj' => ?_
    rw [List.getElem_ofFn, Fin.getElem?_fin, List.getElem?_eq_getElem hj', Option.getD_some]
  rw [rows, names, List.map_ofFn]
  refine congrArg₂ List.cons (List.ofFn_get header) ?_
  rw [← List.ofFn_eq_map]
  refine (congrArg List.ofFn (funext fun i => ?_)).trans (List.ofFn_get table)
  rw [row, List.map_ofFn]
  exact hrow i

end Sheet

/-! ## The law -/

/-- What loading does not depend on. -/
structure ArrangementFree (w : Wording) : Prop where
  /-- A JSON list of records may have its members in other orders, each record in its own, and anything
  more under foreign keys. -/
  json : ∀ {text text' : String} {items items' : List (List (String × Json))},
    Json.parse? text = some (.list (items.map .record)) →
    Json.parse? text' = some (.list (items'.map .record)) →
    List.Forall₂ Extends items items' → loadJson w text' = loadJson w text
  /-- A CSV file may have its columns in another order, and anything more under foreign keys. If the reader
  below refuses one it refuses the other, at the same row; its words may differ, as they tell places. -/
  csv : ∀ {height : Nat} {s s' : Sheet height} {bytes bytes' : List UInt8},
    Csv.rows bytes = s.rows → Csv.rows bytes' = s'.rows → (s.map Sheet.key).Nodup → s.Extends s' →
    (loadCsv w bytes').mapError LoadError.withoutCause =
      (loadCsv w bytes).mapError LoadError.withoutCause
  /-- Each file whose rows are as wide as its header is by columns. -/
  sheet : ∀ (header : List Csv.Field) (table : List (List Csv.Field)),
    (∀ fields ∈ table, fields.length = header.length) →
    ∃ s : Sheet table.length, s.rows = header :: table

/-- **The arrangement does not count**: another arrangement of a source loads as before, to the same
students or to the same error. -/
theorem load_of_extends (w : Wording) : ArrangementFree w where
  json := loadJson_of_extends
  csv := Sheet.loadCsv_of_extends
  sheet := Sheet.exists_rows_eq

/-- What loads but for the words of a refusal loads. -/
theorem eq_ok_of_withoutCause {x x' : Except LoadError Dataset} {d : Dataset}
    (h : x'.mapError LoadError.withoutCause = x.mapError LoadError.withoutCause) (hx : x = .ok d) :
    x' = .ok d := by
  subst hx
  cases x' with
  | error e => cases h
  | ok d' => exact congrArg Except.ok (Except.ok.inj h)

/-- A sheet of texts, by columns. -/
def sheetOfTexts {height : Nat} (columns : List (String × (Fin height → String))) : Sheet height :=
  columns.map fun column => (Text.Utf8.encode column.1, fun i => Text.Utf8.encode (column.2 i))

/-- Two students, one without a name, under headings with blanks. -/
def twoStudents : Sheet 2 :=
  sheetOfTexts
    [("student_id", ![ "7", "8"]), (" name ", ![ "a,b", ""]), ("class", ![ "5", " 6"]),
      ("comprehension", ![ "1", "2"]), ("attention", ![ "3", "4"]), ("focus", ![ "5", "6"]),
      ("retention", ![ "7", "8"]), ("assessment_score", ![ "9", "0.5"]), ("engagement_time", ![ "1", "2"]),
      ("persona", ![ "0", "1"])]

/-- Columns that no field is read from: one name is a key but for its case, and two are the same. -/
def remarks : Sheet 2 :=
  sheetOfTexts [("Class", ![ "no number", "\""]), ("", ![ "", "x"]), (" Class", ![ "", ""])]

def annotated : Sheet 2 := twoStudents.reverse ++ remarks

theorem extends_annotated : twoStudents.Extends annotated := by
  refine ⟨remarks, twoStudents.reverse_perm.append_right _, ?_, ?_, ?_⟩ <;> decide +kernel

/-- A record without a class, and what may be said besides. -/
def classless : List (String × Json) := [("student_id", .int 7), ("name", .text "Ada")]

def asides : List (String × Json) := [("x", .null), (" class", .list [.list []])]

theorem extends_asides : Extends classless (classless ++ asides).reverse := by
  refine ⟨asides, ?_, fun p hp => ?_⟩
  · rw [counted_eq_self (by decide), counted_eq_self (by decide)]
    exact (classless ++ asides).reverse_perm
  · rcases List.mem_pair.1 hp with rfl | rfl <;> decide

theorem load_of_extends_annotated :
    loadJson .plain "[\x7b\" class\": [[]], \"x\": null, \"name\": \"Ada\", \"student_id\": 7\x7d]" =
      .error (.malformed 0 .grade .missing) ∧
    loadCsv .plain (Csv.write annotated.rows) =
      .ok ⟨[⟨7, "a,b", 5, 1, 3, 5, 7, 9, 1, 0⟩, ⟨8, "", 6, 2, 4, 6, 8, 0.5, 2, 1⟩]⟩ := by
  obtain ⟨hjson, hcsv, -⟩ := load_of_extends .plain
  constructor
  · have hplain : loadJson .plain "[\x7b\"student_id\": 7, \"name\": \"Ada\"\x7d]" =
        .error (.malformed 0 .grade .missing) := by decide +kernel
    have hread : Json.parse? "[\x7b\"student_id\": 7, \"name\": \"Ada\"\x7d]" =
        some (.list ([classless].map .record)) := rfl
    exact (hjson hread rfl (.cons extends_asides .nil)).trans hplain
  · have hread : Csv.rows (Csv.write twoStudents.rows) = twoStudents.rows := by decide +kernel
    have hread' : Csv.rows (Csv.write annotated.rows) = annotated.rows := by decide +kernel
    have hplain : loadCsv .plain (Csv.write twoStudents.rows) =
        .ok ⟨[⟨7, "a,b", 5, 1, 3, 5, 7, 9, 1, 0⟩, ⟨8, "", 6, 2, 4, 6, 8, 0.5, 2, 1⟩]⟩ := by decide +kernel
    exact eq_ok_of_withoutCause (hcsv hread hread' (by decide +kernel) extends_annotated) hplain

end SkillBoard
