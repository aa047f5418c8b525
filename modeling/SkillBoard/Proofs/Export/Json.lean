import SkillBoard.Proofs.Export.Csv
import SkillBoard.Proofs.Json.Exact
import SkillBoard.Proofs.Json.Text
import SkillBoard.Proofs.Table

/-!
# JSON round trip, and where it ends

A loaded dataset that is written as JSON is loaded again as it was, but for metrics that are written as
numbers: those are read with one word of precision, not as the nearest double.

* `loadJson_json`: what is loaded from the written text.
* `ReadsBack`: the metrics that survive as numbers, among them all of few digits (`readsBack_of_isShort`).
* `json_roundTrip`: a dataset comes back if all its metrics that are written as numbers do.
-/

namespace SkillBoard

namespace Export

/-- The cell that a written value is loaded as, if it is a value at all. -/
def writtenCell? (v : Json) : Option Cell := (Json.reread? v).map Cell.ofJson

/-- Whether a metric is loaded as it was from the number that is written of it. -/
def ReadsBack (x : Float) : Prop := writtenCell? (.real x) = some (.number x)

/-- An entry as it is written where the row is not loosely typed. -/
def jsonOfEntry : Entry → Json
  | .integer i => .int i
  | .real x => .ofFloat x
  | .text s => .text s

/-- The numbers that a loosely typed row has as texts. -/
def isLoose : Field → Bool
  | .grade | .comprehension | .focus => true
  | _ => false

def jsonEntry (loose : Bool) (s : Student) (field : Field) : Json :=
  jsonNumber (loose && isLoose field) (jsonOfEntry (s.entry field))

/-- The fields in the order of the members of a written record. -/
def keyOrder : List Field :=
  [.assessmentScore, .attention, .grade, .comprehension, .engagementTime, .focus, .name, .persona,
    .retention, .studentId]

theorem mem_keyOrder (field : Field) : field ∈ keyOrder := by
  cases field <;> decide

theorem jsonStudent_eq (loose : Bool) (s : Student) :
    jsonStudent loose s = .record (keyOrder.map fun field => (field.key, jsonEntry loose s field)) := by
  cases loose <;> rfl

/-! ## Written entries -/

theorem render_int (i : Int) : (Json.int i).render = toString i := by
  rw [Json.render, Json.pretty, String.ofList_toList]

theorem render_real (x : Float) : (Json.real x).render = Decimal.Layout.json.render x := by
  rw [Json.render, Json.pretty, String.ofList_toList]

theorem writtenCell?_int {i : Int} (hi : i.natAbs < 2 ^ 63) :
    writtenCell? (.int i) = some (.number (Binary64.ofInt i)) := by
  rw [writtenCell?, Json.reread?, Json.number?_toString hi]
  rfl

/-- What a double is written as is loaded as a number, if at all. -/
theorem exists_number_of_writtenCell? {x : Float} {c : Cell} (h : writtenCell? (.real x) = some c) :
    ∃ y, c = .number y := by
  obtain ⟨v, hv, rfl⟩ := Option.map_eq_some_iff.1 h
  cases Json.isNumber_of_number? hv with
  | int i => exact ⟨_, rfl⟩
  | real y => exact ⟨y, rfl⟩

/-- A metric whose shortest decimal has few digits. -/
def IsShort (x : Float) : Prop := Json.Short (Decimal.shortestMagnitude .even (Binary64.magnitude x))

instance (x : Float) : Decidable (IsShort x) := inferInstanceAs (Decidable (Json.Short _))

theorem readsBack_of_isShort {x : Float} (hx : x.isFinite = true) (h : IsShort x) : ReadsBack x := by
  rw [ReadsBack, writtenCell?, Json.reread?, Json.number?_render hx h]
  rfl

example : IsShort 90.25 ∧ ¬ IsShort 90.10000000000001 := by decide +kernel

/-- The written form of an entry holds the entry, a number that is a metric only if it reads back. -/
theorem exists_holds {c : Cell} {e : Entry} (h : c.Holds e) (asText : Bool)
    (htext : ∀ s, e = .text s → asText = false)
    (hreal : ∀ x, e = .real x → asText = false → ReadsBack x) :
    ∃ cell, writtenCell? (jsonNumber asText (jsonOfEntry e)) = some cell ∧ cell.Holds e := by
  cases h with
  | @integer _ x i hx hfinite hi hlt =>
    cases asText with
    | true =>
      refine ⟨.text (toString i), ?_, holds_toString hfinite hi hlt⟩
      rw [← render_int]
      rfl
    | false =>
      obtain ⟨hfinite', hvalue⟩ := Binary64.toRat_ofInt hfinite hi
      exact ⟨_, writtenCell?_int hlt, .integer (.number _) hfinite' hvalue hlt⟩
  | @real _ x hx hfinite =>
    have hjson : jsonOfEntry (.real x) = .real x := if_pos hfinite
    rw [hjson]
    cases asText with
    | true =>
      refine ⟨.text (Decimal.Layout.json.render x), ?_, .real (denotes_render (.inr rfl) hfinite) hfinite⟩
      rw [← render_real]
      rfl
    | false => exact ⟨.number x, hreal x rfl rfl, .real (.number x) hfinite⟩
  | text s =>
    rw [htext _ rfl]
    exact ⟨.text s, rfl, .text s⟩
  | plain x =>
    rw [htext _ rfl]
    exact ⟨.text _, rfl, .text _⟩

/-! ## Rows -/

/-- The entry as it is read from what is written of it, null if it is not read at all. -/
def rereadEntry (loose : Bool) (s : Student) (field : Field) : Json :=
  (Json.reread? (jsonEntry loose s field)).getD .null

/-- All that is written of a student can be read. -/
def Legible (loose : Bool) (s : Student) : Prop :=
  ∀ field, (Json.reread? (jsonEntry loose s field)).isSome = true

instance (loose : Bool) (s : Student) : Decidable (Legible loose s) :=
  decidable_of_iff (∀ field ∈ keyOrder, (Json.reread? (jsonEntry loose s field)).isSome = true)
    ⟨fun h field => h field (mem_keyOrder field), fun h field _ => h field⟩

/-- The members that a student's record is read as. -/
def rereadMembers (loose : Bool) (s : Student) : List (String × Json) :=
  keyOrder.map fun field => (field.key, rereadEntry loose s field)

theorem forall₂_eq_map_iff {α β : Type} {p : α → Prop} {f : α → β} {as : List α} {bs : List β} :
    List.Forall₂ (fun a b => p a ∧ b = f a) as bs ↔ (∀ a ∈ as, p a) ∧ bs = as.map f := by
  rw [List.forall₂_and_left]
  refine and_congr_right fun _ => ?_
  rw [eq_comm, ← List.forall₂_eq_eq_eq, List.forall₂_map_left_iff]
  simp only [eq_comm]

theorem reread?_jsonStudent_eq_some_iff {loose : Bool} {s : Student} {v : Json} :
    Json.reread? (jsonStudent loose s) = some v ↔
      Legible loose s ∧ v = .record (rereadMembers loose s) := by
  have hmember (field : Field) (q : String × Json) :
      field.key = q.1 ∧ Json.reread? (jsonEntry loose s field) = some q.2 ↔
        (Json.reread? (jsonEntry loose s field)).isSome = true ∧
          q = (field.key, rereadEntry loose s field) := by
    obtain ⟨key, w⟩ := q
    rw [rereadEntry]
    cases Json.reread? (jsonEntry loose s field) with
    | none => simp
    | some u => simp [eq_comm]
  rw [jsonStudent_eq, Json.reread?, Option.map_eq_some_iff]
  simp only [Json.rereadMembers?_eq_some_iff, List.forall₂_map_left_iff, hmember, forall₂_eq_map_iff]
  constructor
  · rintro ⟨members, ⟨hlegible, rfl⟩, rfl⟩
    exact ⟨fun field => hlegible field (mem_keyOrder field), rfl⟩
  · rintro ⟨hlegible, rfl⟩
    exact ⟨_, ⟨fun field _ => hlegible field, rfl⟩, rfl⟩

/-- The rows with whether they are loosely typed. -/
def looseRows (students : List Student) : List (Bool × Student) :=
  students.zipIdx.map fun (s, i) => (i % 3 == 0, s)

theorem json_eq (students : List Student) :
    json students = (Json.list ((looseRows students).map fun p => jsonStudent p.1 p.2)).render := by
  rw [json, looseRows, List.map_map]
  rfl

theorem nesting_jsonEntry (loose : Bool) (s : Student) (field : Field) :
    (jsonEntry loose s field).nesting = 0 := by
  have hentry : (jsonOfEntry (s.entry field)).nesting = 0 := by
    cases s.entry field with
    | real x =>
      show (if x.isFinite = true then Json.real x else .null).nesting = 0
      split
      · rfl
      · rfl
    | _ => rfl
  rw [jsonEntry, jsonNumber]
  split
  · rfl
  · exact hentry

theorem parse?_json_eq_some_iff {students : List Student} {v : Json} :
    Json.parse? (json students) = some v ↔ (∀ p ∈ looseRows students, Legible p.1 p.2) ∧
      v = .list (((looseRows students).map fun p => rereadMembers p.1 p.2).map .record) := by
  have hnesting : Json.nesting (.list ((looseRows students).map fun p => jsonStudent p.1 p.2)) ≤
      Json.maxDepth := by
    have hrecords : (looseRows students).map (fun p => jsonStudent p.1 p.2) =
        ((looseRows students).map fun p =>
          keyOrder.map fun field => (field.key, jsonEntry p.1 p.2 field)).map .record := by
      rw [List.map_map]
      exact List.map_congr_left fun p _ => jsonStudent_eq p.1 p.2
    rw [hrecords]
    refine Json.nesting_records_le fun item hitem member hmember => ?_
    obtain ⟨p, -, rfl⟩ := List.mem_map.1 hitem
    obtain ⟨field, -, rfl⟩ := List.mem_map.1 hmember
    exact nesting_jsonEntry p.1 p.2 field
  rw [json_eq, Json.parse?_render hnesting, Json.reread?, Option.map_eq_some_iff]
  simp only [Json.rereadItems?_eq_some_iff, List.forall₂_map_left_iff, reread?_jsonStudent_eq_some_iff,
    forall₂_eq_map_iff, List.map_map]
  constructor
  · rintro ⟨items, ⟨hlegible, rfl⟩, rfl⟩
    exact ⟨hlegible, rfl⟩
  · rintro ⟨hlegible, rfl⟩
    exact ⟨_, ⟨hlegible, rfl⟩, rfl⟩

/-! ## What is loaded -/

/-- What is written of a student holds the entries of `s'`. -/
def Reloads (loose : Bool) (s s' : Student) : Prop :=
  ∀ field, ∃ cell, writtenCell? (jsonEntry loose s field) = some cell ∧ cell.Holds (s'.entry field)

/-- The record that a student's members are loaded as. -/
def jsonRecord (loose : Bool) (s : Student) : Record :=
  (rereadMembers loose s).map fun (key, v) => (key, Cell.ofJson v)

theorem cell?_jsonRecord (loose : Bool) (s : Student) (field : Field) :
    (jsonRecord loose s).cell? field.key = some (Cell.ofJson (rereadEntry loose s field)) := by
  cases field <;> rfl

theorem reloads_iff {loose : Bool} {s s' : Student} :
    Reloads loose s s' ↔ Legible loose s ∧ s'.HeldBy (jsonRecord loose s).cell? := by
  have hfield (field : Field) :
      (∃ cell, writtenCell? (jsonEntry loose s field) = some cell ∧ cell.Holds (s'.entry field)) ↔
        (Json.reread? (jsonEntry loose s field)).isSome = true ∧
          ∃ cell ∈ (jsonRecord loose s).cell? field.key, cell.Holds (s'.entry field) := by
    rw [cell?_jsonRecord, rereadEntry, writtenCell?]
    cases Json.reread? (jsonEntry loose s field) with
    | none => simp
    | some v => simp
  rw [Reloads, Legible, Student.HeldBy, ← forall_and]
  exact forall_congr' hfield

theorem loadJson_of_legible {w : Wording} {students : List Student}
    (h : ∀ p ∈ looseRows students, Legible p.1 p.2) : loadJson w (json students) =
      Dataset.ofRecords ((looseRows students).map fun p => jsonRecord p.1 p.2) := by
  rw [loadJson_of_records (parse?_json_eq_some_iff.2 ⟨h, rfl⟩), List.map_map]
  rfl

theorem loadJson_of_not_legible {w : Wording} {students : List Student}
    (h : ¬ ∀ p ∈ looseRows students, Legible p.1 p.2) :
    loadJson w (json students) = .error (.jsonNotParsed (w.notJson (json students))) := by
  have hparse : Json.parse? (json students) = none := by
    rw [Option.eq_none_iff_forall_ne_some]
    exact fun v hv => h (parse?_json_eq_some_iff.1 hv).1
  rw [loadJson, hparse]

/-- What is loaded from a written text: for each student one whom the row holds. -/
theorem loadJson_json {w : Wording} {students : List Student} {d : Dataset} :
    loadJson w (json students) = .ok d ↔
      List.Forall₂ (fun p s => Reloads p.1 p.2 s) (looseRows students) d.students ∧
        (∀ s ∈ d.students, 0 < s.id) ∧ (d.students.map (·.id)).Nodup := by
  simp only [reloads_iff, List.forall₂_and_left]
  have hrows : List.Forall₂ Student.HeldBy
      (((looseRows students).map fun p => jsonRecord p.1 p.2).map Record.cell?) d.students ↔
        List.Forall₂ (fun p s => s.HeldBy (jsonRecord p.1 p.2).cell?) (looseRows students)
          d.students := by
    rw [List.map_map, List.forall₂_map_left_iff]
    rfl
  by_cases hlegible : ∀ p ∈ looseRows students, Legible p.1 p.2
  · rw [loadJson_of_legible hlegible, and_iff_right hlegible, ← hrows]
    exact ofRecords_eq_ok_iff
  · rw [loadJson_of_not_legible hlegible]
    constructor
    · intro h
      cases h
    · rintro ⟨⟨h, -⟩, -⟩
      exact absurd h hlegible

/-! ## The round trip -/

theorem map_snd_looseRows (students : List Student) : (looseRows students).map Prod.snd = students := by
  rw [looseRows, List.map_map]
  exact List.zipIdx_map_fst 0 students

theorem isLoose_of_text {s : Student} {field : Field} {t : String} (h : s.entry field = .text t) :
    isLoose field = false := by
  cases field with
  | name => rfl
  | _ => cases h

/-- The metrics that a written text has as numbers: all but comprehension and focus in every third
row. -/
def WrittenAsNumber (students : List Student) (x : Float) : Prop :=
  ∃ p ∈ looseRows students, ∃ field, p.2.entry field = .real x ∧ (p.1 && isLoose field) = false

theorem readsBack_of_reloads {loose : Bool} {s s' : Student} (h : Reloads loose s s') {field : Field}
    {x : Float} (hs : s.entry field = .real x) (hs' : s'.entry field = .real x)
    (hnumber : (loose && isLoose field) = false) : ReadsBack x := by
  obtain ⟨cell, hcell, hholds⟩ := h field
  rw [hs'] at hholds
  cases hholds with
  | real hdenotes hfinite =>
    have hjson : jsonEntry loose s field = .real x := by
      rw [jsonEntry, hnumber, hs]
      exact if_pos hfinite
    rw [hjson] at hcell
    obtain ⟨y, rfl⟩ := exists_number_of_writtenCell? hcell
    rw [ReadsBack, hcell, hdenotes.unique (.number y)]

theorem reloads_self {row : Row} {s : Student} (h : s.HeldBy row) {loose : Bool}
    (hnumber : ∀ field x, s.entry field = .real x → (loose && isLoose field) = false → ReadsBack x) :
    Reloads loose s s := by
  intro field
  obtain ⟨c, -, hholds⟩ := h field
  refine exists_holds hholds _ (fun t ht => ?_) fun x hx => hnumber field x hx
  rw [isLoose_of_text ht, Bool.and_false]

/-- Only metrics that are written as numbers can come back changed. -/
theorem entry_of_reloads {row : Row} {s s' : Student} (h : s.HeldBy row) {loose : Bool}
    (hs' : Reloads loose s s') {field : Field}
    (hfield : ∀ x, s.entry field = .real x → (loose && isLoose field) = true) :
    s'.entry field = s.entry field := by
  obtain ⟨c, -, hc⟩ := h field
  obtain ⟨cell, hcell, hholds⟩ : ∃ cell, writtenCell? (jsonEntry loose s field) = some cell ∧
      cell.Holds (s.entry field) := by
    refine exists_holds hc _ (fun t ht => ?_) fun x hx hnumber => ?_
    · rw [isLoose_of_text ht, Bool.and_false]
    · rw [hfield x hx] at hnumber
      cases hnumber
  obtain ⟨cell', hcell', hholds'⟩ := hs' field
  obtain rfl : cell = cell' := Option.some.inj (hcell.symm.trans hcell')
  rcases field.entry_cases with ⟨-, value, hv⟩ | ⟨-, value, hv⟩ | ⟨-, m, hv⟩
  · rw [hv] at hholds hholds'
    rw [hv, hv, hholds'.integer_unique hholds]
  · rw [hv] at hholds hholds'
    rw [hv, hv, hholds'.text_unique hholds]
  · rw [hv] at hholds hholds'
    rw [hv, hv, hholds'.real_unique hholds]

/-- **JSON round trip**: a loaded dataset is loaded again from the JSON text that is written of it exactly
if its metrics that are written as numbers read back, as those of few digits do. Whatever is loaded,
nothing but these is changed. -/
theorem json_roundTrip {d : Dataset} (hd : Loaded d) (w : Wording) :
    (loadJson w (json d.students) = .ok d ↔ ∀ x, WrittenAsNumber d.students x → ReadsBack x) ∧
    (∀ x, WrittenAsNumber d.students x → IsShort x → ReadsBack x) ∧
    ∀ d', loadJson w (json d.students) = .ok d' → List.Forall₂ (fun p (s' : Student) => ∀ field,
      (∀ x, p.2.entry field = .real x → (p.1 && isLoose field) = true) →
        s'.entry field = p.2.entry field) (looseRows d.students) d'.students := by
  obtain ⟨hheld, hpositive, hdistinct⟩ := hd.heldBy
  have hmem : ∀ p ∈ looseRows d.students, p.2 ∈ d.students := by
    intro p hp
    rw [← map_snd_looseRows d.students]
    exact List.mem_map_of_mem hp
  have hself : List.Forall₂ (fun p s => Reloads p.1 p.2 s) (looseRows d.students) d.students ↔
      ∀ p ∈ looseRows d.students, Reloads p.1 p.2 p.2 := by
    nth_rewrite 2 [← map_snd_looseRows d.students]
    rw [List.forall₂_map_right_iff, List.forall₂_same]
  refine ⟨?_, ?_, ?_⟩
  · rw [loadJson_json, hself, and_iff_left ⟨hpositive, hdistinct⟩]
    constructor
    · rintro h x ⟨p, hp, field, hx, hnumber⟩
      exact readsBack_of_reloads (h p hp) hx hx hnumber
    · intro h p hp
      obtain ⟨row, hrow⟩ := hheld p.2 (hmem p hp)
      exact reloads_self hrow fun field x hx hnumber => h x ⟨p, hp, field, hx, hnumber⟩
  · rintro x ⟨p, hp, field, hx, -⟩ hshort
    obtain ⟨row, hrow⟩ := hheld p.2 (hmem p hp)
    obtain ⟨cell, -, hholds⟩ := hrow field
    exact readsBack_of_isShort (hx ▸ hholds).isFinite hshort
  · intro d' hd'
    obtain ⟨hreloads, -, -⟩ := loadJson_json.1 hd'
    have hboth := (List.forall₂_and_left _ _).2 ⟨hmem, hreloads⟩
    refine hboth.imp fun p s' hp field hfield => ?_
    obtain ⟨row, hrow⟩ := hheld p.2 hp.1
    exact entry_of_reloads hrow hp.2 hfield

/-- The students of `awkwardStudents` survive. -/
theorem json_roundTrip_awkwardStudents :
    loadColumns (columns awkwardStudents) = .ok ⟨awkwardStudents⟩ ∧
      loadJson .plain (json awkwardStudents) = .ok ⟨awkwardStudents⟩ ∧
      ∀ x, WrittenAsNumber awkwardStudents x → ReadsBack x := by
  have h : (Source.columns (columns awkwardStudents)).load .plain = .ok ⟨awkwardStudents⟩ := by
    decide +kernel
  have hjson : loadJson .plain (json awkwardStudents) = .ok ⟨awkwardStudents⟩ := by
    rw [loadJson_of_legible (by decide +kernel)]
    decide +kernel
  exact ⟨h, hjson, (json_roundTrip (.source h) .plain).1.1 hjson⟩

/-- A student with one metric twice, as a text and as a number. -/
def longMetric : Student :=
  ⟨1, "Ada", 5, 90.10000000000001, 90.10000000000001, 70, 60, 50, 40, 0⟩

/-- The number loses its last digit, the text does not. -/
theorem loadJson_json_longMetric :
    Loaded ⟨[longMetric]⟩ ∧
      loadJson .plain (json [longMetric]) = .ok ⟨[{ longMetric with attention := 90.1 }]⟩ ∧
      longMetric.comprehension = longMetric.attention ∧ (90.1 == longMetric.attention) = false := by
  have h : (Source.columns (columns [longMetric])).load .plain = .ok ⟨[longMetric]⟩ := by
    decide +kernel
  refine ⟨.source h, ?_, rfl, ?_⟩
  · rw [loadJson_of_legible (by decide +kernel)]
    decide +kernel
  · decide +kernel

end Export

end SkillBoard
