import SkillBoard.Proofs.Csv
import SkillBoard.Proofs.Json.Text
import SkillBoard.Proofs.Source.Loading

/-!
# The formats agree

A `Grid` is a table of texts. It can be written in each of the three formats: as a JSON list of records
of strings, as a CSV file with all fields in quotes, as columns of texts. Whatever stands in the cells,
the three are loaded alike.

* `Grid.records`: what every format is read as (`loadJson_eq`, `loadCsv_eq`, `loadColumns_eq`).
* `readRecords_cases`: what goes wrong with records goes wrong with one of them, which is named.
-/

namespace SkillBoard

/-! ## Records as lookups -/

namespace Record

theorem lookup_eq_some_iff {r : Record} (hr : (r.map Prod.fst).Nodup) {key : String} {c : Cell} :
    r.lookup key = some c ↔ (key, c) ∈ r := by
  rw [List.lookup_eq_some_iff]
  constructor
  · rintro ⟨before, after, rfl, -⟩
    exact List.mem_append_right before List.mem_cons_self
  · intro hmem
    obtain ⟨before, after, rfl⟩ := List.append_of_mem hmem
    rw [List.map_append, List.map_cons, List.nodup_middle, List.nodup_cons] at hr
    refine ⟨before, after, rfl, fun p hp => bne_iff_ne.2 fun hkey => ?_⟩
    have hmem : p.1 ∈ before.map Prod.fst := List.mem_map_of_mem hp
    exact hr.1 (List.mem_append_left _ (hkey ▸ hmem))

/-- Where no key occurs twice, the order of the cells does not count. -/
theorem cell?_eq_of_perm {r r' : Record} (h : r.Perm r') (hr : (r'.map Prod.fst).Nodup) :
    r.cell? = r'.cell? := by
  have hreverse {s : Record} (hs : s.Perm r') : (s.reverse.map Prod.fst).Nodup := by
    have hperm : s.reverse.Perm r' := s.reverse_perm.trans hs
    exact (hperm.map Prod.fst).nodup_iff.2 hr
  funext key
  refine Option.ext fun c => ?_
  rw [cell?, cell?, lookup_eq_some_iff (hreverse h), lookup_eq_some_iff (hreverse (.refl r')),
    List.mem_reverse, List.mem_reverse, h.mem_iff]

theorem student_congr {r r' : Record} (h : r.cell? = r'.cell?) : r.student = r'.student := by
  unfold student get
  rw [h]

end Record

theorem readRecords_congr {records records' : List Record}
    (h : records.map Record.student = records'.map Record.student) (row : Nat) (ids : List Int) :
    readRecords row ids records = readRecords row ids records' := by
  induction records generalizing records' row ids with
  | nil =>
    obtain rfl := List.map_eq_nil_iff.1 h.symm
    rfl
  | cons r records ih =>
    obtain ⟨r', rest, rfl, hr, hrest⟩ := List.map_eq_cons_iff.1 h.symm
    unfold readRecords
    rw [hr]
    simp only [ih hrest.symm]

/-- Only what each record gives counts. -/
theorem ofRecords_congr {records records' : List Record}
    (h : records.map Record.student = records'.map Record.student) :
    Dataset.ofRecords records = Dataset.ofRecords records' := by
  rw [Dataset.ofRecords, readRecords_congr h, Dataset.ofRecords]

/-- Records give students, or a fault of one of them. -/
theorem readRecords_cases (row : Nat) (ids : List Int) (records : List Record) :
    (∃ students, readRecords row ids records = .ok students) ∨
      ∃ i field fault, i < records.length ∧
        readRecords row ids records = .error (.malformed (row + i) field fault) := by
  induction records generalizing row ids with
  | nil => exact .inl ⟨[], rfl⟩
  | cons r records ih =>
    unfold readRecords
    cases r.student with
    | error e => exact .inr ⟨0, e.1, e.2, Nat.succ_pos _, rfl⟩
    | ok s =>
      by_cases hid : s.id ∈ ids
      · refine .inr ⟨0, .studentId, .duplicate s.id, Nat.succ_pos _, ?_⟩
        exact if_pos hid
      · rcases ih (row + 1) (s.id :: ids) with ⟨students, h⟩ | ⟨i, field, fault, hi, h⟩
        · refine .inl ⟨s :: students, (if_neg hid).trans ?_⟩
          rw [h]
          rfl
        · refine .inr ⟨i + 1, field, fault, Nat.succ_lt_succ hi, (if_neg hid).trans ?_⟩
          rw [h, Nat.add_assoc, Nat.add_comm 1 i]
          rfl

/-! ## Tables of texts -/

/-- A table of texts under column names. The names are different and have no blanks around them, and
there is at least one. -/
structure Grid where
  names : List String
  rows : List (List String)
  wide : names ≠ []
  distinct : names.Nodup
  trimmed : ∀ name ∈ names, Text.trim name = name
  rectangular : ∀ cells ∈ rows, cells.length = names.length

namespace Grid

variable (g : Grid)

def record (cells : List String) : Record := g.names.zip (cells.map Cell.text)

def records : List Record := g.rows.map g.record

theorem keys_record {cells : List String} (hcells : cells.length = g.names.length) :
    (g.record cells).map Prod.fst = g.names := by
  rw [record, List.map_fst_zip]
  rw [List.length_map, hcells]

/-! ### As JSON -/

/-- The members of a row, in the order of the columns. -/
def members (cells : List String) : List (String × Json) := g.names.zip (cells.map Json.text)

/-- A JSON text that says what the table says: a list of one record for each row, with the row's cells
as strings. Spaces, escapes and the order of the members are free. -/
def SaidBy (text : String) : Prop :=
  ∃ items : List (List (String × Json)), Json.parse? text = some (.list (items.map .record)) ∧
    List.Forall₂ (fun item cells => item.Perm (g.members cells)) items g.rows

/-- The table written out as JSON. -/
def json : String := (Json.list ((g.rows.map g.members).map .record)).render

theorem saidBy_json : g.SaidBy g.json := by
  have htext {cells : List String} {p : String × Json} (hp : p ∈ g.members cells) :
      ∃ s, p.2 = .text s := by
    obtain ⟨s, -, hs⟩ := List.mem_map.1 (List.of_mem_zip hp).2
    exact ⟨s, hs.symm⟩
  have hnesting : Json.nesting (.list ((g.rows.map g.members).map .record)) ≤ Json.maxDepth := by
    refine Json.nesting_records_le fun item hitem p hp => ?_
    obtain ⟨cells, -, rfl⟩ := List.mem_map.1 hitem
    obtain ⟨s, hs⟩ := htext hp
    rw [hs]
    rfl
  have hmembers (cells : List String) :
      Json.reread? (.record (g.members cells)) = some (.record (g.members cells)) := by
    refine Option.map_eq_some_iff.2 ⟨_, Json.rereadMembers?_eq_some_iff.2 ?_, rfl⟩
    refine List.forall₂_same.2 fun p hp => ⟨rfl, ?_⟩
    obtain ⟨s, hs⟩ := htext hp
    rw [hs]
    rfl
  refine ⟨g.rows.map g.members, ?_, ?_⟩
  · rw [json, Json.parse?_render hnesting]
    refine Option.map_eq_some_iff.2 ⟨_, Json.rereadItems?_eq_some_iff.2 ?_, rfl⟩
    rw [List.forall₂_same]
    intro v hv
    obtain ⟨item, hitem, rfl⟩ := List.mem_map.1 hv
    obtain ⟨cells, -, rfl⟩ := List.mem_map.1 hitem
    exact hmembers cells
  · rw [List.forall₂_map_left_iff]
    exact List.forall₂_same.2 fun cells _ => .refl _

theorem loadJson_eq {w : Wording} {text : String} (h : g.SaidBy text) :
    loadJson w text = Dataset.ofRecords g.records := by
  obtain ⟨items, hparse, hitems⟩ := h
  have hload := loadJson_of_records (w := w) hparse
  have hcells (cells : List String) :
      (g.members cells).map (fun p => (p.1, Cell.ofJson p.2)) = g.record cells := by
    rw [members, record, List.zip_map_right, List.zip_map_right, List.map_map]
    exact List.map_congr_left fun _ _ => rfl
  have hrow : ∀ cells ∈ g.rows, (g.record cells).map Prod.fst = g.names := fun cells hcells =>
    g.keys_record (g.rectangular cells hcells)
  rw [hload, records]
  clear hparse hload
  refine ofRecords_congr ?_
  generalize g.rows = rows at hitems hrow
  induction hitems with
  | nil => rfl
  | @cons item cells items rows hitem _ ih =>
    obtain ⟨hfirst, hrest⟩ := List.forall_mem_cons.1 hrow
    have hperm : (item.map fun p => (p.1, Cell.ofJson p.2)).Perm (g.record cells) :=
      hcells cells ▸ hitem.map _
    rw [List.map_cons, List.map_cons, List.map_cons, List.map_cons, ih hrest,
      Record.student_congr (Record.cell?_eq_of_perm hperm (hfirst ▸ g.distinct))]

/-! ### As CSV -/

/-- The rows of a CSV file of the table, its header first. -/
def csvRows : List (List Csv.Field) := (g.names :: g.rows).map fun texts => texts.map Text.Utf8.encode

/-- The table written out as CSV, all fields in quotes. -/
def csv (lineEnd : List UInt8) : List UInt8 := g.csvRows.flatMap fun row => Csv.quotedRow row ++ lineEnd

theorem allQuoted_csv {lineEnd : List UInt8} (h : Csv.LineEnd lineEnd) :
    Csv.AllQuoted g.csvRows (g.csv lineEnd) := by
  refine Csv.allQuoted_flatMap (fun row hrow => ?_) h
  obtain ⟨texts, htexts, rfl⟩ := List.mem_map.1 hrow
  have hlength : texts.length = g.names.length := by
    rcases List.mem_cons.1 htexts with rfl | hcells
    · rfl
    · exact g.rectangular texts hcells
  have hwide : 0 < g.names.length := List.length_pos_of_ne_nil g.wide
  rw [Ne, List.map_eq_nil_iff, ← List.length_eq_zero_iff]
  omega

theorem loadCsv_eq {w : Wording} {bytes : List UInt8} (h : Csv.AllQuoted g.csvRows bytes) :
    loadCsv w bytes = Dataset.ofRecords g.records := by
  have htrim : g.names.map Text.trim = g.names := (List.map_congr_left g.trimmed).trans (List.map_id' _)
  exact loadCsv_encode (Csv.rows_of_allQuoted h) htrim g.rectangular

/-! ### As columns -/

def column (name : String) (j : Nat) : Column := ⟨name, .texts (g.rows.map fun cells => cells[j]?)⟩

def columns : List Column := g.names.zipIdx.map fun (name, j) => g.column name j

/-- The columns from `k` on, zipped. -/
theorem zipColumns_eq (names : List String) (k : Nat)
    (hlength : ∀ cells ∈ g.rows, cells.length = k + names.length) :
    Source.zipColumns ((names.zipIdx k).map fun (name, j) => g.column name j)
        (List.replicate g.rows.length []) =
      g.rows.map fun cells => names.zip ((cells.drop k).map Cell.text) := by
  induction names generalizing k with
  | nil =>
    simp only [List.zip_nil_left, List.map_const']
    rfl
  | cons name names ih =>
    have hrest := ih (k + 1) fun cells hcells => by
      rw [hlength cells hcells, List.length_cons]
      omega
    rw [List.zipIdx_cons, List.map_cons, Source.zipColumns, List.foldr_cons, ← Source.zipColumns, hrest]
    show ((g.rows.map fun cells => cells[k]?).map (ColumnValues.cells.present Cell.text)).zipWith _ _ = _
    rw [List.map_map, List.zipWith_map, List.zipWith_self]
    refine List.map_congr_left fun cells hcells => ?_
    have hk : k < cells.length := by
      rw [hlength cells hcells, List.length_cons]
      omega
    rw [Function.comp, List.getElem?_eq_getElem hk, List.drop_eq_getElem_cons hk]
    rfl

theorem loadColumns_eq : loadColumns g.columns = Dataset.ofRecords g.records := by
  have hzip := g.zipColumns_eq g.names 0 fun cells hcells => by
    rw [g.rectangular cells hcells, Nat.zero_add]
  obtain ⟨name, names, hnames⟩ := List.exists_cons_of_ne_nil g.wide
  have hcolumns : g.columns =
      g.column name 0 :: (names.zipIdx 1).map fun (name, j) => g.column name j := by
    rw [columns, hnames, List.zipIdx_cons, List.map_cons]
  have hheight : (g.column name 0).values.cells.length = g.rows.length := by
    simp [column, ColumnValues.cells]
  have hrecords : Column.records g.columns =
      Source.zipColumns g.columns (List.replicate g.rows.length []) := by
    rw [hcolumns, ← hheight]
    rfl
  rw [loadColumns, hrecords, columns, hzip]
  rfl

/-! ### Agreement -/

/-- **The formats agree**: a table of texts is loaded alike from all three, whether it gives students or
a fault, and a fault is one of a row of the table. -/
theorem formats_agree (w : Wording) {text : String} {bytes : List UInt8} (htext : g.SaidBy text)
    (hbytes : Csv.AllQuoted g.csvRows bytes) :
    loadJson w text = loadColumns g.columns ∧ loadCsv w bytes = loadColumns g.columns ∧
    ((∃ d : Dataset, loadColumns g.columns = .ok d) ∨
      ∃ row field fault, row < g.rows.length ∧
        loadColumns g.columns = .error (.malformed row field fault)) := by
  have hcolumns := g.loadColumns_eq
  refine ⟨(g.loadJson_eq htext).trans hcolumns.symm, (g.loadCsv_eq hbytes).trans hcolumns.symm, ?_⟩
  rw [hcolumns, Dataset.ofRecords]
  rcases readRecords_cases 0 [] g.records with ⟨students, h⟩ | ⟨row, field, fault, hrow, h⟩
  · rw [h]
    exact .inl ⟨_, rfl⟩
  · rw [h, Nat.zero_add]
    rw [records, List.length_map] at hrow
    exact .inr ⟨row, field, fault, hrow, rfl⟩

/-- Two rows with one id, as the blanks around it do not count, and a name with all that is escaped. -/
def twins : Grid where
  names := Field.all.map Field.key
  rows :=
    [["7", "a,\"b\"\r\n\\", "5", "0.1", "1e-3", "-0", "62", "50", "40.5", "2"],
      [" 7 ", "", "5", "1", "2", "3", "4", "5", "6", "-1"]]
  wide := by decide
  distinct := by decide +kernel
  trimmed := by decide +kernel
  rectangular := by decide

theorem formats_agree_twins :
    loadJson .plain twins.json = .error (.malformed 1 .studentId (.duplicate 7)) ∧
      loadCsv .plain (twins.csv [Csv.carriageReturn, Csv.lineFeed]) =
        .error (.malformed 1 .studentId (.duplicate 7)) ∧
      loadColumns twins.columns = .error (.malformed 1 .studentId (.duplicate 7)) := by
  have hcolumns : loadColumns twins.columns = .error (.malformed 1 .studentId (.duplicate 7)) := by
    decide +kernel
  have hend : Csv.LineEnd [Csv.carriageReturn, Csv.lineFeed] := ⟨by decide, rfl⟩
  obtain ⟨hjson, hcsv, -⟩ := formats_agree twins .plain twins.saidBy_json (twins.allQuoted_csv hend)
  exact ⟨hjson.trans hcolumns, hcsv.trans hcolumns, hcolumns⟩

end Grid

end SkillBoard
