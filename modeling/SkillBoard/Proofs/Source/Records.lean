import SkillBoard.Proofs.Binary.Bits
import SkillBoard.Source.Record

/-!
# When records give students

`Cell.Denotes` and `Cell.Holds` say what a cell stands for, without the coercions: a number if it is
one or its text names one, and an entry if that number is one the entry can take.

* `rule_eq_ok_iff`: the coercion of a field's cell gives an entry exactly if the cell holds it.
* `student_eq_ok_iff`: a record gives a student exactly if its cells hold the student's entries
  (`Student.HeldBy`) and the id is positive.
* `ofRecords_eq_ok_iff`: records give a dataset exactly if each gives its student and no id occurs
  twice.
-/

namespace SkillBoard

theorem bind_eq_ok_iff {ε α β : Type} {x : Except ε α} {f : α → Except ε β} {b : β} :
    (x >>= f) = .ok b ↔ ∃ a, x = .ok a ∧ f a = .ok b := by
  cases x with
  | error e => simp [bind, Except.bind]
  | ok a => simp [bind, Except.bind]

theorem map_eq_ok_iff {ε α β : Type} {x : Except ε α} {f : α → β} {b : β} :
    x.map f = .ok b ↔ ∃ a, x = .ok a ∧ f a = b := by
  cases x with
  | error e => simp [Except.map]
  | ok a => simp [Except.map]

theorem mapError_eq_ok_iff {ε ε' α : Type} {x : Except ε α} {f : ε → ε'} {a : α} :
    x.mapError f = .ok a ↔ x = .ok a := by
  cases x with
  | error e => simp [Except.mapError]
  | ok a => simp [Except.mapError]

/-! ## One cell -/

/-- The number that a cell stands for; blanks around a number text do not count. -/
inductive Cell.Denotes : Cell → Float → Prop
  | number (x : Float) : Denotes (.number x) x
  | text {s : String} {x : Float} (h : float? (Text.trim s) = some x) : Denotes (.text s) x

/-- The entry that a cell stands for: an integer is the exact value of a finite number, a text is taken
as it is. -/
inductive Cell.Holds : Cell → Entry → Prop
  | integer {c : Cell} {x : Float} {i : Int} (hx : c.Denotes x) (hfinite : x.isFinite = true)
      (hi : Binary64.toRat x = i) (hlt : i.natAbs < 2 ^ 63) : Holds c (.integer i)
  | real {c : Cell} {x : Float} (hx : c.Denotes x) (hfinite : x.isFinite = true) : Holds c (.real x)
  | text (s : String) : Holds (.text s) (.text s)
  | plain (x : Float) : Holds (.number x) (.text (Decimal.Layout.plain.render x))

theorem Cell.Denotes.unique {c : Cell} {x y : Float} (hx : c.Denotes x) (hy : c.Denotes y) : x = y := by
  cases hx with
  | number x =>
    cases hy
    rfl
  | text h =>
    cases hy with
    | text h' => exact Option.some.inj (h.symm.trans h')

theorem Cell.Holds.integer_unique {c : Cell} {i j : Int} (hi : c.Holds (.integer i))
    (hj : c.Holds (.integer j)) : i = j := by
  cases hi with
  | integer hx _ hi =>
    cases hj with
    | integer hy _ hj =>
      rw [hx.unique hy, hj] at hi
      exact_mod_cast hi.symm

theorem Cell.Holds.text_unique {c : Cell} {s t : String} (hs : c.Holds (.text s))
    (ht : c.Holds (.text t)) : s = t := by
  cases hs with
  | text s =>
    cases ht
    rfl
  | plain x =>
    cases ht
    rfl

theorem Cell.Holds.real_unique {c : Cell} {x y : Float} (hx : c.Holds (.real x))
    (hy : c.Holds (.real y)) : x = y := by
  cases hx with
  | real hx =>
    cases hy with
    | real hy => exact hx.unique hy

theorem float?_empty : float? "" = none := by decide +kernel

theorem anyNumber_eq_ok_iff {c : Option Cell} {x : Float} :
    Record.anyNumber c = .ok x ↔ ∃ cell ∈ c, cell.Denotes x := by
  cases c with
  | none => simp [Record.anyNumber]
  | some cell =>
    simp only [Option.mem_some_iff, exists_eq_left']
    cases cell with
    | number y =>
      constructor
      · intro h
        obtain rfl := Except.ok.inj h
        exact .number y
      · rintro ⟨⟩
        rfl
    | text s =>
      have hdenotes : (Cell.text s).Denotes x ↔ float? (Text.trim s) = some x :=
        ⟨fun h => by cases h; assumption, .text⟩
      rw [hdenotes, Record.anyNumber]
      by_cases hempty : Text.trim s = ""
      · rw [if_pos hempty, hempty, float?_empty]
        simp
      · rw [if_neg hempty]
        cases float? (Text.trim s) <;> simp
    | unusable kind =>
      constructor
      · intro h
        cases h
      · rintro ⟨⟩

theorem number_eq_ok_iff {c : Option Cell} {x : Float} :
    Record.number c = .ok x ↔ ∃ cell ∈ c, cell.Holds (.real x) := by
  simp only [Record.number, bind_eq_ok_iff, anyNumber_eq_ok_iff]
  constructor
  · rintro ⟨y, ⟨cell, hcell, hy⟩, h⟩
    split at h
    next hfinite =>
      obtain rfl := Except.ok.inj h
      exact ⟨cell, hcell, .real hy hfinite⟩
    next => cases h
  · rintro ⟨cell, hcell, hholds⟩
    cases hholds with
    | real hx hfinite => exact ⟨x, ⟨cell, hcell, hx⟩, if_pos hfinite⟩

theorem integer_eq_ok_iff {c : Option Cell} {i : Int} :
    Record.integer c = .ok i ↔ ∃ cell ∈ c, cell.Holds (.integer i) := by
  have hbound : (1 <<< 63 : Nat) = 2 ^ 63 := rfl
  simp only [Record.integer, bind_eq_ok_iff, number_eq_ok_iff, hbound]
  constructor
  · rintro ⟨x, ⟨cell, hcell, hholds⟩, h⟩
    cases hholds with
    | real hx hfinite =>
      split at h
      next hwhole =>
        obtain rfl := Except.ok.inj h
        exact ⟨cell, hcell, .integer hx hfinite (Binary64.toRat_eq_truncate hwhole.1) hwhole.2⟩
      next => cases h
  · rintro ⟨cell, hcell, hholds⟩
    cases hholds with
    | integer hx hfinite hi hlt =>
      obtain ⟨hwhole, rfl⟩ := Binary64.toRat_eq_intCast_iff.1 hi
      exact ⟨_, ⟨cell, hcell, .real hx hfinite⟩, if_pos ⟨hwhole, hlt⟩⟩

theorem text_eq_ok_iff {c : Option Cell} {t : String} :
    Record.text c = .ok t ↔ ∃ cell ∈ c, cell.Holds (.text t) := by
  cases c with
  | none => simp [Record.text]
  | some cell =>
    simp only [Option.mem_some_iff, exists_eq_left']
    constructor
    · intro h
      cases cell with
      | number x =>
        obtain rfl := Except.ok.inj h
        exact .plain x
      | text s =>
        obtain rfl := Except.ok.inj h
        exact .text s
      | unusable kind => cases h
    · intro h
      cases h <;> rfl

theorem positive_eq_ok_iff {c : Option Cell} {i : Int} :
    Record.positive c = .ok i ↔ (∃ cell ∈ c, cell.Holds (.integer i)) ∧ 0 < i := by
  simp only [Record.positive, bind_eq_ok_iff, integer_eq_ok_iff]
  constructor
  · rintro ⟨j, hj, h⟩
    split at h
    next hpos =>
      obtain rfl := Except.ok.inj h
      exact ⟨hj, hpos⟩
    next => cases h
  · rintro ⟨hi, hpos⟩
    exact ⟨i, hi, if_pos hpos⟩

/-! ## One record -/

/-- The cells of a source record, under their keys. -/
abbrev Row := String → Option Cell

/-- Every entry of the student stands in the row, under its field's key. -/
def Student.HeldBy (row : Row) (s : Student) : Prop :=
  ∀ field : Field, ∃ cell ∈ row field.key, cell.Holds (s.entry field)

theorem Cell.Holds.isFinite {c : Cell} {x : Float} (h : c.Holds (.real x)) : x.isFinite = true := by
  cases h with
  | real _ hfinite => exact hfinite

theorem Student.HeldBy.isFinite {row : Row} {s : Student} (h : s.HeldBy row) (m : Metric) :
    (s.metric m).isFinite = true := by
  have hentry (field : Field) {x : Float} (hx : s.entry field = .real x) : x.isFinite = true := by
    obtain ⟨cell, -, hholds⟩ := h field
    exact (hx ▸ hholds).isFinite
  cases m with
  | comprehension => exact hentry .comprehension rfl
  | attention => exact hentry .attention rfl
  | focus => exact hentry .focus rfl
  | retention => exact hentry .retention rfl
  | assessmentScore => exact hentry .assessmentScore rfl
  | engagementTime => exact hentry .engagementTime rfl

theorem exists_row {rows : List Row} {students : List Student}
    (h : List.Forall₂ Student.HeldBy rows students) {s : Student} (hs : s ∈ students) :
    ∃ row, s.HeldBy row := by
  induction h with
  | nil => cases hs
  | cons hrow _ ih =>
    rcases List.mem_cons.1 hs with rfl | hs
    · exact ⟨_, hrow⟩
    · exact ih hs

theorem get_eq_ok_iff {α : Type} {r : Record} {field : Field} {rule : Option Cell → Except Fault α}
    {a : α} : r.get field rule = .ok a ↔ rule (r.cell? field.key) = .ok a :=
  mapError_eq_ok_iff

theorem student_eq_ok_iff {r : Record} {s : Student} :
    r.student = .ok s ↔ s.HeldBy r.cell? ∧ 0 < s.id := by
  simp only [Student.HeldBy, Record.student, bind_eq_ok_iff, get_eq_ok_iff, positive_eq_ok_iff, integer_eq_ok_iff,
    number_eq_ok_iff, text_eq_ok_iff]
  constructor
  · rintro ⟨id, ⟨hid, hpos⟩, name, hname, grade, hgrade, c, hc, a, ha, f, hf, t, ht, score, hscore, time,
      htime, persona, hpersona, hs⟩
    obtain rfl := Except.ok.inj hs
    refine ⟨fun field => ?_, hpos⟩
    cases field <;> assumption
  · rintro ⟨h, hpos⟩
    exact ⟨_, ⟨h .studentId, hpos⟩, _, h .name, _, h .grade, _, h .comprehension, _, h .attention, _,
      h .focus, _, h .retention, _, h .assessmentScore, _, h .engagementTime, _, h .persona, rfl⟩

/-! ## All records -/

theorem readRecords_eq_ok_iff {row : Nat} {ids : List Int} {records : List Record}
    {students : List Student} : readRecords row ids records = .ok students ↔
      List.Forall₂ (fun r s => r.student = .ok s) records students ∧ (students.map (·.id)).Nodup ∧
        ∀ s ∈ students, s.id ∉ ids := by
  induction records generalizing row ids students with
  | nil =>
    rw [readRecords]
    constructor
    · intro h
      obtain rfl := Except.ok.inj h
      simp
    · rintro ⟨h, -⟩
      rw [List.forall₂_nil_left_iff.1 h]
  | cons r rest ih =>
    simp only [readRecords, bind_eq_ok_iff, mapError_eq_ok_iff]
    constructor
    · rintro ⟨s, hs, h⟩
      split at h
      · cases h
      next hid =>
        obtain ⟨others, hothers, h⟩ := bind_eq_ok_iff.1 h
        obtain rfl := Except.ok.inj h
        obtain ⟨hall, hnodup, hnew⟩ := ih.1 hothers
        refine ⟨.cons hs hall, ?_, ?_⟩
        · rw [List.map_cons, List.nodup_cons]
          refine ⟨fun hmem => ?_, hnodup⟩
          obtain ⟨t, ht, hts⟩ := List.mem_map.1 hmem
          exact hnew t ht (hts ▸ List.mem_cons_self)
        · intro t ht
          rcases List.mem_cons.1 ht with rfl | ht
          · exact hid
          · exact fun hmem => hnew t ht (List.mem_cons_of_mem _ hmem)
    · rintro ⟨hall, hnodup, hnew⟩
      obtain ⟨s, others, hs, hrest, rfl⟩ := List.forall₂_cons_left_iff.1 hall
      rw [List.map_cons, List.nodup_cons] at hnodup
      obtain ⟨hfirst, hothers⟩ := List.forall_mem_cons.1 hnew
      refine ⟨s, hs, ?_⟩
      rw [if_neg hfirst, bind_eq_ok_iff]
      refine ⟨others, ih.2 ⟨hrest, hnodup.2, fun t ht hmem => ?_⟩, rfl⟩
      rcases List.mem_cons.1 hmem with h | h
      · exact hnodup.1 (h ▸ List.mem_map_of_mem ht)
      · exact hothers t ht h

theorem forall₂_and_right {α β : Type} {R : α → β → Prop} {p : β → Prop} {as : List α} {bs : List β} :
    List.Forall₂ (fun a b => R a b ∧ p b) as bs ↔ List.Forall₂ R as bs ∧ ∀ b ∈ bs, p b := by
  induction as generalizing bs with
  | nil =>
    rw [List.forall₂_nil_left_iff, List.forall₂_nil_left_iff]
    exact ⟨fun h => ⟨h, by simp [h]⟩, And.left⟩
  | cons a as ih =>
    cases bs with
    | nil => simp
    | cons b bs =>
      rw [List.forall₂_cons, List.forall₂_cons, List.forall_mem_cons, ih]
      exact and_and_and_comm

theorem ofRecords_eq_ok_iff {records : List Record} {d : Dataset} :
    Dataset.ofRecords records = .ok d ↔
      List.Forall₂ Student.HeldBy (records.map Record.cell?) d.students ∧
        (∀ s ∈ d.students, 0 < s.id) ∧ (d.students.map (·.id)).Nodup := by
  have hrow : List.Forall₂ (fun (r : Record) s => r.student = .ok s) records d.students ↔
      List.Forall₂ Student.HeldBy (records.map Record.cell?) d.students ∧
        ∀ s ∈ d.students, 0 < s.id := by
    simp only [student_eq_ok_iff, forall₂_and_right, List.forall₂_map_left_iff]
  rw [Dataset.ofRecords, map_eq_ok_iff, ← and_assoc, ← hrow]
  constructor
  · rintro ⟨students, h, rfl⟩
    obtain ⟨hall, hnodup, -⟩ := readRecords_eq_ok_iff.1 h
    exact ⟨hall, hnodup⟩
  · rintro ⟨hall, hnodup⟩
    exact ⟨d.students, readRecords_eq_ok_iff.2 ⟨hall, hnodup, fun s _ => List.not_mem_nil⟩, rfl⟩

end SkillBoard
