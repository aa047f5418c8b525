import SkillBoard.Proofs.Source.FirstFault

/-!
# What is said of a refusal

Where something cannot be loaded, the chain of messages says what is wrong with it: first what was being
done and then, where a reader or the system below refuses, its own words.

* `Source.Refusal` and `Path.Refusal` say it of a source and of a file, in full.
* `Source.refusal_iff` and `Path.refusal_iff`: this is what loading says, and all that it says.
-/

namespace SkillBoard

/-! ## Sources -/

namespace Source

/-- What is said of a source that is refused. -/
inductive Refusal (w : Wording) : Source → String → Prop
  | notJson {text : String} (h : Json.parse? text = none) :
    Refusal w (.json text) ("parsing JSON: " ++ w.notJson text)
  | notList {text : String} {v : Json} (h : Json.parse? text = some v) (hv : ∀ items, v ≠ .list items) :
    Refusal w (.json text) "Expected top-level JSON array"
  | notRecord {text : String} {before : List (List (String × Json))} {v : Json} {after : List Json}
    (h : Json.parse? text = some (.list (before.map .record ++ v :: after)))
    (hv : ∀ members, v ≠ .record members) :
    Refusal w (.json text) ("Row " ++ toString before.length ++ " is not a JSON object")
  | header {bytes : List UInt8} {header : List Csv.Field} {rows : List (List Csv.Field)}
    (h : Csv.rows bytes = header :: rows) (hheader : header.mapM Text.Utf8.decode? = none) :
    Refusal w (.csv bytes) ("reading CSV headers: " ++ w.csvHeader bytes)
  | row {bytes : List UInt8} {header : List Csv.Field} {names : List String}
    {before : List (List Csv.Field)} {table : List (List String)} {fields : List Csv.Field}
    {after : List (List Csv.Field)} (h : Csv.rows bytes = header :: (before ++ fields :: after))
    (hnames : header.mapM Text.Utf8.decode? = some names)
    (hbefore : List.Forall₂ (CsvCells names.length) before table)
    (hfields : ∀ cells, ¬ CsvCells names.length fields cells) :
    Refusal w (.csv bytes)
      ("CSV row " ++ toString before.length ++ ": " ++ w.csvRow bytes before.length)
  | record {src : Source} {before after : List Record} {r : Record} {field : Field} {fault : Fault}
    (h : src.Reads (before ++ r :: after)) (hbefore : Faultless before)
    (hr : r.FaultAfter before field fault) :
    Refusal w src ("malformed record at row " ++ toString before.length ++ ": field '" ++ field.key ++
      "' " ++ fault.reason)

theorem Misread.refusal {w : Wording} {src : Source} {e : LoadError} (h : src.Misread w e) :
    src.Refusal w e.chain := by
  cases h with
  | notJson h => exact .notJson h
  | notList h hv => exact .notList h hv
  | notRecord h hv => exact .notRecord h hv
  | header h hheader => exact .header h hheader
  | row h hnames hbefore hfields => exact .row h hnames hbefore hfields

theorem Refusal.load {w : Wording} {src : Source} {text : String} (h : src.Refusal w text) :
    ∃ e, src.load w = .error e ∧ e.chain = text := by
  cases h with
  | notJson h => exact ⟨_, (Misread.notJson h).load, rfl⟩
  | notList h hv => exact ⟨_, (Misread.notList h hv).load, rfl⟩
  | notRecord h hv => exact ⟨_, (Misread.notRecord h hv).load, rfl⟩
  | header h hheader => exact ⟨_, (Misread.header h hheader).load, rfl⟩
  | row h hnames hbefore hfields => exact ⟨_, (Misread.row h hnames hbefore hfields).load, rfl⟩
  | record h hbefore hr =>
    exact ⟨_, h.load.trans (ofRecords_eq_error_iff.2 ⟨_, _, _, _, _, rfl, hbefore, hr, rfl⟩), rfl⟩

/-- This is what is said of a source, and all that is said. -/
theorem refusal_iff {w : Wording} {src : Source} {text : String} :
    src.Refusal w text ↔ ∃ e, src.load w = .error e ∧ e.chain = text := by
  constructor
  · exact Refusal.load
  · rintro ⟨e, he, rfl⟩
    rcases exists_misread_or_reads w src with ⟨e', hmisread⟩ | ⟨records, hreads⟩
    · obtain rfl := Except.error.inj (hmisread.load.symm.trans he)
      exact hmisread.refusal
    · rw [hreads.load, ofRecords_eq_error_iff] at he
      obtain ⟨before, r, after, field, fault, rfl, hbefore, hr, rfl⟩ := he
      exact .record hreads hbefore hr

end Source

/-! ## Files -/

theorem Content.eq_unopened_of_read {content : Content} {cause : String} (h : content.read = .error cause) :
    content = .unopened cause := by
  cases content with
  | unopened _ =>
    obtain rfl := Except.error.inj h
    rfl
  | _ => cases h

namespace Path

/-- The source that a file holds, its format given by the extension. -/
inductive Holds (path : Path) : Content → Source → Prop
  | json {content : Content} {bytes : List UInt8} {text : String} (h : path.extension = "json")
    (hread : content.read = .ok bytes) (htext : Text.Utf8.decode? bytes = some text) :
    Holds path content (.json text)
  | csv {content : Content} {bytes : List UInt8} (h : path.extension = "csv")
    (hread : content.read = .ok bytes) : Holds path content (.csv bytes)
  | columns {columns : List Column} {bytes : List UInt8} (h : path.extension ∈ ["parquet", "pq"]) :
    Holds path (.columnar columns bytes) (.columns columns)

/-- What is said of a file that is refused. -/
inductive Refusal (w : Wording) (path : Path) : Content → String → Prop
  | extension {content : Content} (h : path.extension ∉ ["parquet", "pq", "json", "csv"]) :
    Refusal w path content ("unsupported file extension: ." ++ path.extension)
  | jsonNotOpened {cause : String} (h : path.extension = "json") :
    Refusal w path (.unopened cause) ("reading JSON file: " ++ cause)
  | csvNotOpened {cause : String} (h : path.extension = "csv") :
    Refusal w path (.unopened cause) ("opening CSV: " ++ cause)
  | columnsNotOpened {cause : String} (h : path.extension ∈ ["parquet", "pq"]) :
    Refusal w path (.unopened cause) ("opening parquet file: " ++ cause)
  | notText {content : Content} {bytes : List UInt8} (h : path.extension = "json")
    (hread : content.read = .ok bytes) (htext : Text.Utf8.decode? bytes = none) :
    Refusal w path content ("reading JSON file: " ++ w.notText bytes)
  | metadata {bytes : List UInt8} {cause : String} (h : path.extension ∈ ["parquet", "pq"])
    (hcause : w.notColumns bytes = (.metadata, cause)) :
    Refusal w path (.octets bytes) ("reading parquet metadata: " ++ cause)
  | reader {bytes : List UInt8} {cause : String} (h : path.extension ∈ ["parquet", "pq"])
    (hcause : w.notColumns bytes = (.reader, cause)) :
    Refusal w path (.octets bytes) ("building parquet reader: " ++ cause)
  | batch {bytes : List UInt8} {cause : String} (h : path.extension ∈ ["parquet", "pq"])
    (hcause : w.notColumns bytes = (.batch, cause)) :
    Refusal w path (.octets bytes) ("reading parquet record batch: " ++ cause)
  | source {content : Content} {src : Source} {text : String} (h : path.Holds content src)
    (hsrc : src.Refusal w text) : Refusal w path content text

variable {w : Wording} {path : Path} {content : Content}

theorem loadFile_of_unsupported (h : path.extension ∉ ["parquet", "pq", "json", "csv"]) :
    loadFile w path content = .error (.unsupportedFormat path.extension) := by
  simp only [List.mem_cons, List.not_mem_nil, or_false, not_or] at h
  obtain ⟨h1, h2, h3, h4⟩ := h
  unfold loadFile
  split
  · exact absurd ‹_› h1
  · exact absurd ‹_› h2
  · exact absurd ‹_› h3
  · exact absurd ‹_› h4
  · rfl

theorem loadFile_json (h : path.extension = "json") :
    loadFile w path content = loadJsonFile w content := by
  simp only [loadFile, h]

theorem loadFile_csv (h : path.extension = "csv") : loadFile w path content = loadCsvFile w content := by
  simp only [loadFile, h]

theorem loadFile_columnar (h : path.extension ∈ ["parquet", "pq"]) :
    loadFile w path content = loadColumnarFile w content := by
  rcases List.mem_pair.1 h with h | h <;> simp only [loadFile, h]

/-- A file loads as the source that it holds. -/
theorem Holds.load {src : Source} (h : path.Holds content src) : loadFile w path content = src.load w := by
  cases h with
  | json h hread htext => simp only [loadFile_json h, loadJsonFile, hread, htext, Source.load]
  | csv h hread => simp only [loadFile_csv h, loadCsvFile, hread, Source.load]
  | columns h => rw [loadFile_columnar h, loadColumnarFile, Source.load]

theorem Refusal.load {text : String} (h : path.Refusal w content text) :
    ∃ e, loadFile w path content = .error e ∧ e.chain = text := by
  cases h with
  | extension h => exact ⟨_, loadFile_of_unsupported h, rfl⟩
  | jsonNotOpened h => exact ⟨_, loadFile_json h, rfl⟩
  | csvNotOpened h => exact ⟨_, loadFile_csv h, rfl⟩
  | columnsNotOpened h => exact ⟨_, loadFile_columnar h, rfl⟩
  | notText h hread htext =>
    refine ⟨.jsonNotRead _, ?_, rfl⟩
    simp only [loadFile_json h, loadJsonFile, hread, htext]
  | metadata h hcause | reader h hcause | batch h hcause =>
    refine ⟨.columnsNotRead _ _, loadFile_columnar h, ?_⟩
    rw [hcause]
    rfl
  | source h hsrc =>
    rw [h.load]
    exact hsrc.load

theorem refusal_of_loadJsonFile {e : LoadError} (h : path.extension = "json")
    (he : loadJsonFile w content = .error e) : path.Refusal w content e.chain := by
  unfold loadJsonFile at he
  split at he
  next cause hread =>
    obtain rfl := Content.eq_unopened_of_read hread
    obtain rfl := Except.error.inj he
    exact .jsonNotOpened h
  next bytes hread =>
    split at he
    next text htext => exact .source (.json h hread htext) (Source.refusal_iff.2 ⟨e, he, rfl⟩)
    next htext =>
      obtain rfl := Except.error.inj he
      exact .notText h hread htext

theorem refusal_of_loadCsvFile {e : LoadError} (h : path.extension = "csv")
    (he : loadCsvFile w content = .error e) : path.Refusal w content e.chain := by
  unfold loadCsvFile at he
  split at he
  next cause hread =>
    obtain rfl := Content.eq_unopened_of_read hread
    obtain rfl := Except.error.inj he
    exact .csvNotOpened h
  next bytes hread => exact .source (.csv h hread) (Source.refusal_iff.2 ⟨e, he, rfl⟩)

theorem refusal_of_loadColumnarFile {e : LoadError} (h : path.extension ∈ ["parquet", "pq"])
    (he : loadColumnarFile w content = .error e) : path.Refusal w content e.chain := by
  cases content with
  | unopened cause =>
    obtain rfl := Except.error.inj he
    exact .columnsNotOpened h
  | octets bytes =>
    obtain rfl := Except.error.inj he
    rcases hcause : w.notColumns bytes with ⟨_ | _ | _, cause⟩
    · exact .metadata h hcause
    · exact .reader h hcause
    · exact .batch h hcause
  | columnar columns bytes => exact .source (.columns h) (Source.refusal_iff.2 ⟨e, he, rfl⟩)

/-- This is what is said of a file, and all that is said. -/
theorem refusal_iff {text : String} :
    path.Refusal w content text ↔ ∃ e, loadFile w path content = .error e ∧ e.chain = text := by
  constructor
  · exact Refusal.load
  · rintro ⟨e, he, rfl⟩
    by_cases hcolumns : path.extension ∈ ["parquet", "pq"]
    · exact refusal_of_loadColumnarFile hcolumns (loadFile_columnar hcolumns ▸ he)
    by_cases hjson : path.extension = "json"
    · exact refusal_of_loadJsonFile hjson (loadFile_json hjson ▸ he)
    by_cases hcsv : path.extension = "csv"
    · exact refusal_of_loadCsvFile hcsv (loadFile_csv hcsv ▸ he)
    have hother : path.extension ∉ ["parquet", "pq", "json", "csv"] := by
      simp only [List.mem_cons, List.not_mem_nil, or_false, not_or] at hcolumns ⊢
      exact ⟨hcolumns.1, hcolumns.2, hjson, hcsv⟩
    obtain rfl := Except.error.inj ((loadFile_of_unsupported hother).symm.trans he)
    exact .extension hother

end Path

end SkillBoard
