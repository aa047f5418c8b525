import SkillBoard.Proofs.Grouping
import SkillBoard.Proofs.Runs
import SkillBoard.Proofs.Source.Records
import SkillBoard.Sample

/-!
# What a loaded dataset says about its source

`Source.rows?` reads a source record by record, each as the cells under its keys, whatever the format
does to get there.

* `load_eq_ok`: what is loaded are the students of these records.
* `load_sound`: a dataset that is loaded has one student for each record, in order, whose entries are
  those that the record's cells hold; ids are positive and distinct, metrics finite.
* `Loaded`: the datasets that there are, from a source, from a file or in the program.
-/

namespace SkillBoard

/-- Something that a dataset is loaded from. -/
inductive Source
  | json (text : String)
  | csv (bytes : List UInt8)
  | columns (columns : List Column)

namespace Source

def load (w : Wording) : Source → Except LoadError Dataset
  | json text => loadJson w text
  | csv bytes => loadCsv w bytes
  | columns cs => loadColumns cs

/-! ## The records of a source -/

/-- Of a key that occurs twice in a JSON record, the last value counts. -/
def jsonRow? : Json → Option Row
  | .record members => some fun key => (members.reverse.lookup key).map Cell.ofJson
  | _ => none

def csvRow (names cells : List String) : Row := fun key =>
  ((names.zip cells).reverse.lookup key).map Cell.text

def columnsRow (columns : List Column) (i : Nat) : Row := fun key =>
  (columns.reverse.find? (·.name == key)).bind (·.values.cells[i]?)

/-- How many rows a columnar table has: as many cells as its columns have. -/
def height (columns : List Column) : Nat := (columns.map (·.values.cells.length)).min?.getD 0

/-- The records of a source, in its order, if it has any structure. -/
def rows? : Source → Option (List Row)
  | json text =>
    match Json.parse? text with
    | some (.list items) => items.mapM jsonRow?
    | _ => none
  | csv bytes =>
    match Csv.rows bytes with
    | [] => some []
    | header :: rows => do
      let names ← header.mapM Text.Utf8.decode?
      let table ← rows.mapM (·.mapM Text.Utf8.decode?)
      some (table.map (csvRow (names.map Text.trim)))
  | columns cs => some ((List.range (height cs)).map (columnsRow cs))

theorem cell?_map {α : Type} (members : List (String × α)) (f : α → Cell) (key : String) :
    Record.cell? (members.map fun p => (p.1, f p.2)) key = (members.reverse.lookup key).map f := by
  rw [Record.cell?, ← List.map_reverse]
  induction members.reverse with
  | nil => rfl
  | cons p rest ih =>
    obtain ⟨k, a⟩ := p
    simp only [List.map_cons, List.lookup_cons]
    by_cases h : key == k
    · simp [h]
    · simp [h, ih]

theorem jsonRecords_rows {row : Nat} {items : List Json} {records : List Record}
    (h : jsonRecords row items = .ok records) :
    items.mapM jsonRow? = some (records.map Record.cell?) := by
  induction items generalizing row records with
  | nil =>
    obtain rfl := Except.ok.inj h
    rfl
  | cons item items ih =>
    cases item with
    | record members =>
      obtain ⟨others, hothers, h⟩ := bind_eq_ok_iff.1 h
      obtain rfl := Except.ok.inj h
      have hrow : Record.cell? (members.map fun p => (p.1, Cell.ofJson p.2)) =
          fun key => (members.reverse.lookup key).map Cell.ofJson :=
        funext (cell?_map members Cell.ofJson)
      simp only [List.mapM_cons, ih hothers, jsonRow?]
      show some (_ :: _) = some (_ :: _)
      rw [hrow]
    | _ => exact nomatch h

theorem csvRecords_rows {cause : Nat → String} {names : List String} {row : Nat}
    {rows : List (List Csv.Field)} {records : List Record}
    (h : csvRecords cause names row rows = .ok records) :
    ∃ table, rows.mapM (·.mapM Text.Utf8.decode?) = some table ∧
      table.map (csvRow names) = records.map Record.cell? := by
  induction rows generalizing row records with
  | nil =>
    obtain rfl := Except.ok.inj h
    exact ⟨[], rfl, rfl⟩
  | cons fields rows ih =>
    rw [csvRecords] at h
    split at h
    · cases h
    next cells hcells =>
      split at h
      next hlength =>
        obtain ⟨others, hothers, h⟩ := bind_eq_ok_iff.1 h
        obtain rfl := Except.ok.inj h
        obtain ⟨table, htable, hrows⟩ := ih hothers
        refine ⟨cells :: table, ?_, ?_⟩
        · rw [List.mapM_cons, hcells, htable]
          rfl
        · have hrow : csvRow names cells = Record.cell? (names.zip (cells.map Cell.text)) := by
            funext key
            rw [List.zip_map_right]
            exact (cell?_map (names.zip cells) Cell.text key).symm
          rw [List.map_cons, List.map_cons, hrows, hrow]
      next => cases h

/-- The records of a columnar table, without its first column apart. -/
def zipColumns (columns : List Column) (rows : List Record) : List Record :=
  columns.foldr
    (fun column rows => column.values.cells.zipWith (fun cell row => (column.name, cell) :: row) rows)
    rows

theorem zipColumns_length (columns : List Column) (n : Nat) :
    (zipColumns columns (List.replicate n [])).length =
      (columns.map (·.values.cells.length)).foldr min n := by
  induction columns with
  | nil => simp [zipColumns]
  | cons c rest ih =>
    rw [zipColumns, List.foldr_cons, List.length_zipWith, ← zipColumns, ih, List.map_cons,
      List.foldr_cons]

theorem lt_of_lt_foldr_min {lengths : List Nat} {i n : Nat} (h : i < lengths.foldr min n) :
    ∀ m ∈ lengths, i < m := by
  induction lengths with
  | nil => simp
  | cons m rest ih =>
    rw [List.foldr_cons, lt_min_iff] at h
    exact List.forall_mem_cons.2 ⟨h.1, ih h.2⟩

theorem foldr_min_le (lengths : List Nat) (n : Nat) : lengths.foldr min n ≤ n := by
  induction lengths with
  | nil => exact le_refl n
  | cons m rest ih => exact (min_le_right _ _).trans ih

theorem columnsRow_cons {c : Column} {rest : List Column} {i : Nat}
    (h : ∀ column ∈ rest, i < column.values.cells.length) (key : String) :
    columnsRow (c :: rest) i key =
      (columnsRow rest i key).or (if c.name == key then c.values.cells[i]? else none) := by
  unfold columnsRow
  rw [List.reverse_cons, List.find?_append]
  cases hfind : rest.reverse.find? (·.name == key) with
  | none =>
    rw [Option.none_or, Option.bind_none, Option.none_or, List.find?_singleton]
    split <;> rfl
  | some column =>
    have hmem := List.mem_reverse.1 (List.mem_of_find?_eq_some hfind)
    rw [Option.some_or, Option.bind_some, List.getElem?_eq_getElem (h column hmem), Option.some_or]

theorem zipColumns_cell? (columns : List Column) (n i : Nat)
    (h : i < (zipColumns columns (List.replicate n [])).length) :
    Record.cell? (zipColumns columns (List.replicate n []))[i] = columnsRow columns i := by
  induction columns with
  | nil =>
    funext key
    simp [zipColumns, Record.cell?, columnsRow]
  | cons c rest ih =>
    have hlt := h
    rw [zipColumns_length, List.map_cons, List.foldr_cons, lt_min_iff] at hlt
    have hrest : i < (zipColumns rest (List.replicate n [])).length := by
      rw [zipColumns_length]
      exact hlt.2
    have hall : ∀ column ∈ rest, i < column.values.cells.length := fun column hc =>
      lt_of_lt_foldr_min hlt.2 _ (List.mem_map_of_mem hc)
    funext key
    have ih := congrFun (ih hrest) key
    rw [columnsRow_cons hall, ← ih]
    simp only [Record.cell?, zipColumns, List.foldr_cons, List.getElem_zipWith, List.reverse_cons,
      List.lookup_append, List.lookup_cons, List.lookup_nil, List.getElem?_eq_getElem hlt.1]
    by_cases hkey : key = c.name
    · rw [beq_iff_eq.2 hkey, if_pos (beq_iff_eq.2 hkey.symm)]
    · rw [beq_false_of_ne hkey, if_neg (by simpa using Ne.symm hkey)]

theorem columns_rows (columns : List Column) :
    (List.range (height columns)).map (columnsRow columns) =
      (Column.records columns).map Record.cell? := by
  cases columns with
  | nil => rfl
  | cons c rest =>
    have hrecords : Column.records (c :: rest) =
        zipColumns (c :: rest) (List.replicate c.values.cells.length []) := rfl
    have hlength : (zipColumns (c :: rest) (List.replicate c.values.cells.length [])).length =
        height (c :: rest) := by
      rw [zipColumns_length, height, List.map_cons, List.foldr_cons, List.min?_cons',
        Option.getD_some, List.foldl_eq_foldr, min_eq_right (foldr_min_le _ _)]
    rw [hrecords]
    refine List.ext_getElem ?_ fun i hi _ => ?_
    · rw [List.length_map, List.length_range, List.length_map, hlength]
    · rw [List.length_map, List.length_range, ← hlength] at hi
      rw [List.getElem_map, List.getElem_range, List.getElem_map, zipColumns_cell?]

/-- Whatever the format, a loaded dataset is the students of the source's records. -/
theorem load_eq_ok {w : Wording} {src : Source} {d : Dataset} (h : src.load w = .ok d) :
    ∃ records : List Record, src.rows? = some (records.map Record.cell?) ∧
      Dataset.ofRecords records = .ok d := by
  cases src with
  | json text =>
    rw [load, loadJson] at h
    split at h
    next => cases h
    next items hitems =>
      obtain ⟨records, hrecords, h⟩ := bind_eq_ok_iff.1 h
      refine ⟨records, ?_, h⟩
      rw [rows?, hitems]
      exact jsonRecords_rows hrecords
    next => cases h
  | csv bytes =>
    rw [load, loadCsv] at h
    split at h
    next hrows =>
      obtain rfl := Except.ok.inj h
      refine ⟨[], ?_, rfl⟩
      rw [rows?, hrows]
      rfl
    next header rows hrows =>
      split at h
      next => cases h
      next names hnames =>
        obtain ⟨records, hrecords, h⟩ := bind_eq_ok_iff.1 h
        obtain ⟨table, htable, hcells⟩ := csvRecords_rows hrecords
        refine ⟨records, ?_, h⟩
        rw [rows?, hrows]
        simp only [hnames, htable, Option.bind_eq_bind, Option.bind_some, hcells]
  | columns cs => exact ⟨_, congrArg some (columns_rows cs), h⟩

/-! ## What is loaded -/

/-- A dataset says what a source says. -/
structure Gives (src : Source) (d : Dataset) : Prop where
  /-- One student for each record, in order, with the entries that the record's cells hold. -/
  students : ∃ rows, src.rows? = some rows ∧
    List.Forall₂ Student.HeldBy rows d.students
  positive : ∀ s ∈ d.students, 0 < s.id
  distinct : (d.students.map (·.id)).Nodup
  finite : ∀ s ∈ d.students, ∀ m : Metric, (s.metric m).isFinite = true
  /-- The personas are those of the students, each once. -/
  personas : d.personas.Pairwise (· < ·) ∧ ∀ p, p ∈ d.personas ↔ ∃ s ∈ d.students, s.persona = p

/-- **Loading is sound**: whatever a source of any format gives, if it gives a dataset at all, that is
what the source says. -/
theorem load_sound {w : Wording} {src : Source} {d : Dataset} (h : src.load w = .ok d) : src.Gives d := by
  obtain ⟨records, hrows, hrecords⟩ := load_eq_ok h
  obtain ⟨hheld, hpositive, hdistinct⟩ := ofRecords_eq_ok_iff.1 hrecords
  refine ⟨⟨_, hrows, hheld⟩, hpositive, hdistinct, fun s hs m => ?_, d.personas_pairwise,
    fun _ => Dataset.mem_personas⟩
  obtain ⟨row, hrow⟩ := exists_row hheld hs
  exact hrow.isFinite m

end Source

/-- Columns of every type that a field can be read from, where numbers stand in texts and the other way
round. -/
def mixedColumns : List Column :=
  [⟨"student_id", .texts [some " 7 ", some "3e2"]⟩, ⟨"name", .texts [some " Ada", some ""]⟩,
    ⟨"class", .doubles [some 5, some (-0.0)]⟩, ⟨"comprehension", .singles [some 0.5, some 100]⟩,
    ⟨"attention", .texts [some "-0", some "1e308"]⟩, ⟨"focus", .doubles [some 0.1, some 5e-324]⟩,
    ⟨"retention", .integers [some 62, some (-1)]⟩, ⟨"assessment_score", .doubles [some 1, some 2]⟩,
    ⟨"engagement_time", .doubles [some 1, some 2]⟩, ⟨"persona", .integers [some 2, some (-4)]⟩]

def mixedStudents : List Student :=
  [⟨7, " Ada", 5, 0.5, -0.0, 0.1, 62, 1, 1, 2⟩, ⟨300, "", 0, 100, 1e308, 5e-324, -1, 2, 2, -4⟩]

theorem mixedColumns_gives : (Source.columns mixedColumns).load .plain = .ok ⟨mixedStudents⟩ ∧
    (Source.columns mixedColumns).Gives ⟨mixedStudents⟩ := by
  have h : (Source.columns mixedColumns).load .plain = .ok ⟨mixedStudents⟩ := by decide +kernel
  exact ⟨h, Source.load_sound h⟩

/-! ## JSON lists of records -/

theorem jsonRecords_record (row : Nat) (items : List (List (String × Json))) :
    jsonRecords row (items.map .record) =
      .ok (items.map fun item => item.map fun (key, v) => (key, Cell.ofJson v)) := by
  induction items generalizing row with
  | nil => rfl
  | cons item items ih =>
    rw [List.map_cons, jsonRecords, ih]
    rfl

theorem loadJson_of_records {w : Wording} {text : String} {items : List (List (String × Json))}
    (h : Json.parse? text = some (.list (items.map .record))) : loadJson w text =
      Dataset.ofRecords (items.map fun item => item.map fun (key, v) => (key, Cell.ofJson v)) := by
  rw [loadJson, h]
  simp only [jsonRecords_record]
  rfl

/-! ## CSV files of texts -/

namespace Text.Utf8

theorem decode?_encode (s : String) : decode? (encode s) = some s := by
  have hbytes : s.toByteArray.data.toList.toByteArray = s.toByteArray := by
    ext1
    rw [List.data_toByteArray]
  unfold decode? encode
  rw [hbytes]
  exact dif_pos s.isValidUTF8

theorem mapM_decode?_encode (texts : List String) : (texts.map encode).mapM decode? = some texts := by
  rw [List.mapM_map]
  refine (mapM_some fun s _ => ?_).trans (congrArg some (List.map_id texts))
  exact decode?_encode s

end Text.Utf8

theorem csvRecords_encode {cause : Nat → String} {names : List String} {rows : List (List String)}
    (hlength : ∀ cells ∈ rows, cells.length = names.length) (row : Nat) :
    csvRecords cause names row (rows.map fun cells => cells.map Text.Utf8.encode) =
      .ok (rows.map fun cells => names.zip (cells.map Cell.text)) := by
  induction rows generalizing row with
  | nil => rfl
  | cons cells rows ih =>
    obtain ⟨hcells, hrest⟩ := List.forall_mem_cons.1 hlength
    rw [List.map_cons, csvRecords, Text.Utf8.mapM_decode?_encode]
    simp only [if_pos hcells, ih hrest]
    rfl

/-- A file of texts under names without blanks around them. -/
theorem loadCsv_encode {w : Wording} {names : List String} {rows : List (List String)}
    {bytes : List UInt8}
    (hrows : Csv.rows bytes =
      names.map Text.Utf8.encode :: rows.map fun cells => cells.map Text.Utf8.encode)
    (htrim : names.map Text.trim = names) (hlength : ∀ cells ∈ rows, cells.length = names.length) :
    loadCsv w bytes = Dataset.ofRecords (rows.map fun cells => names.zip (cells.map Cell.text)) := by
  unfold loadCsv
  rw [hrows]
  simp only [Text.Utf8.mapM_decode?_encode, htrim, csvRecords_encode hlength]
  rfl

/-! ## All loaded datasets -/

/-- The datasets that any way of loading gives. -/
inductive Loaded : Dataset → Prop
  | source {w : Wording} {src : Source} {d : Dataset} (h : src.load w = .ok d) : Loaded d
  | file {w : Wording} {path : Path} {content : Content} {d : Dataset}
    (h : loadFile w path content = .ok d) : Loaded d
  | sample {w : Wording} {d : Dataset} (h : loadSample w = .ok d) : Loaded d

section

variable {w : Wording} {content : Content} {d : Dataset}

theorem exists_source_of_loadColumnarFile (h : loadColumnarFile w content = .ok d) :
    ∃ src : Source, src.load w = .ok d := by
  cases content with
  | columnar cs _ => exact ⟨.columns cs, h⟩
  | _ => cases h

theorem exists_source_of_loadFile {path : Path} (h : loadFile w path content = .ok d) :
    ∃ src : Source, src.load w = .ok d := by
  unfold loadFile at h
  split at h
  · exact exists_source_of_loadColumnarFile h
  · exact exists_source_of_loadColumnarFile h
  · unfold loadJsonFile at h
    split at h
    · cases h
    · split at h
      · exact ⟨.json _, h⟩
      · cases h
  · unfold loadCsvFile at h
    split at h
    · cases h
    · exact ⟨.csv _, h⟩
  · cases h


theorem loadSample_eq_ok_iff :
    loadSample w = .ok d ↔ loadJson w sampleText = .ok d := by
  unfold loadSample
  cases loadJson w sampleText with
  | ok d' => rfl
  | error e => exact ⟨nofun, nofun⟩

theorem exists_source_of_loadSample (h : loadSample w = .ok d) : ∃ src : Source, src.load w = .ok d := by
  have hjson := loadSample_eq_ok_iff.1 h
  generalize sampleText = text at hjson
  exact ⟨.json text, hjson⟩

end

theorem Loaded.exists_source {d : Dataset} (h : Loaded d) :
    ∃ (w : Wording) (src : Source), src.load w = .ok d := by
  cases h with
  | source h => exact ⟨_, _, h⟩
  | file h => exact ⟨_, exists_source_of_loadFile h⟩
  | sample h => exact ⟨_, exists_source_of_loadSample h⟩

/-- What every loaded dataset satisfies, wherever its students stood. -/
theorem Loaded.heldBy {d : Dataset} (h : Loaded d) :
    (∀ s ∈ d.students, ∃ row, s.HeldBy row) ∧ (∀ s ∈ d.students, 0 < s.id) ∧
      (d.students.map (·.id)).Nodup := by
  obtain ⟨w, src, hsrc⟩ := h.exists_source
  obtain ⟨records, -, hrecords⟩ := Source.load_eq_ok hsrc
  obtain ⟨hheld, hpositive, hdistinct⟩ := ofRecords_eq_ok_iff.1 hrecords
  exact ⟨fun s hs => exists_row hheld hs, hpositive, hdistinct⟩

end SkillBoard
