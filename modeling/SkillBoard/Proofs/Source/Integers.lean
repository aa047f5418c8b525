import SkillBoard.Proofs.Binary.Integers
import SkillBoard.Proofs.Json.Number
import SkillBoard.Proofs.Source.FirstFault

/-!
# Integers on their way from a source

Every number of a source is a double before it is anything else. So an integer field gets the integer
that is nearest to the source's among those that are doubles (`integers_rounded`): up to `2 ^ 53` that is
the source's own, above it ids that differ can become one.

* `Cell.Spells`: the cells that hold an integer, in each format.
* `Record.HoldsInteger`: a record with such a cell and nothing wrong with its other fields.
-/

namespace SkillBoard

/-- The cells that hold the integer `n`: a JSON integer, its decimal text in a JSON string or a CSV
field, a value in a column of integers. Blanks around a text do not count. -/
inductive Cell.Spells (n : Int) : Cell → Prop
  | json : Spells n (.ofJson (.int n))
  | jsonText {s : String} (h : Text.trim s = toString n) : Spells n (.ofJson (.text s))
  | csv {s : String} (h : Text.trim s = toString n) : Spells n (.text s)
  | column {values : List (Option Int)} {i : Nat} {c : Cell} (h : values[i]? = some (some n))
    (hc : (ColumnValues.integers values).cells[i]? = some c) : Spells n c

theorem Cell.Spells.denotes {c : Cell} {n : Int} (h : c.Spells n) : c.Denotes (Binary64.ofInt n) := by
  have htext {s : String} (h : Text.trim s = toString n) : (Cell.text s).Denotes (Binary64.ofInt n) :=
    .text (by rw [h, float?_toString_eq])
  cases h with
  | json => exact .number _
  | jsonText h => exact htext h
  | csv h => exact htext h
  | column h hc =>
    rw [ColumnValues.cells, List.getElem?_map, h] at hc
    obtain rfl := Option.some_inj.1 hc
    exact .number _

/-- An integer cell gives the integer that its double is, if that has less than 64 bits. -/
theorem integer_of_spells {c : Cell} {n : Int} (hn : c.Spells n) (hlt : n.natAbs < 2 ^ 63) :
    Record.integer (some c) =
      if n.natAbs < 2 ^ 63 - 512 then .ok (Binary64.roundedInt n)
      else .error (.notInteger (Binary64.ofInt n)) := by
  have hfinite := Binary64.isFinite_ofInt hlt
  have hnumber : Record.number (some c) = .ok (Binary64.ofInt n) :=
    number_eq_ok_iff.2 ⟨c, rfl, .real hn.denotes hfinite⟩
  have hbound : (1 <<< 63 : Nat) = 2 ^ 63 := rfl
  have htruncate : Binary64.truncate (Binary64.ofInt n) = Binary64.roundedInt n := rfl
  rw [Record.integer, hnumber, hbound]
  simp only [bind, Except.bind, Binary64.isWhole_ofInt hlt, true_and, htruncate,
    Binary64.natAbs_roundedInt_lt_iff hlt]

theorem Field.rule_of_integer {field : Field} (hkind : field.kind = .integer) {c : Option Cell} {i : Int}
    (h : Record.integer c = .ok i) (hpos : field = .studentId → 0 < i) :
    field.rule c = .ok (.integer i) := by
  cases field with
  | studentId =>
    rw [rule, Record.positive, h]
    simp only [bind, Except.bind, if_pos (hpos rfl)]
    rfl
  | grade => rw [rule, h]; rfl
  | persona => rw [rule, h]; rfl
  | _ => cases hkind

theorem Field.rule_of_not_integer {field : Field} (hkind : field.kind = .integer) {c : Option Cell}
    {fault : Fault} (h : Record.integer c = .error fault) : field.rule c = .error fault := by
  cases field with
  | studentId => rw [rule, Record.positive, h]; rfl
  | grade => rw [rule, h]; rfl
  | persona => rw [rule, h]; rfl
  | _ => cases hkind

/-! ## Records -/

/-- A record that holds the integer `n` in a field, with nothing wrong in its other fields. -/
structure Record.HoldsInteger (r : Record) (field : Field) (n : Int) : Prop where
  kind : field.kind = .integer
  cell : ∃ c, r.cell? field.key = some c ∧ c.Spells n
  small : n.natAbs < 2 ^ 63
  positive : field = .studentId → 0 < n
  rest : ∀ f, f ≠ field → ∃ entry, f.rule (r.cell? f.key) = .ok entry

namespace Record.HoldsInteger

variable {r : Record} {field : Field} {n : Int} (h : r.HoldsInteger field n)

include h

theorem rule_ok (hlt : n.natAbs < 2 ^ 63 - 512) :
    field.rule (r.cell? field.key) = .ok (.integer (Binary64.roundedInt n)) := by
  obtain ⟨c, hc, hn⟩ := h.cell
  have hinteger := integer_of_spells hn h.small
  rw [if_pos hlt] at hinteger
  rw [hc]
  exact field.rule_of_integer h.kind hinteger fun hid => Binary64.roundedInt_pos (h.positive hid)

theorem exists_student (hlt : n.natAbs < 2 ^ 63 - 512) : ∃ s, r.student = .ok s := by
  rw [exists_student_iff]
  intro f
  by_cases hf : f = field
  · exact hf ▸ ⟨_, h.rule_ok hlt⟩
  · exact h.rest f hf

theorem student_error (hge : 2 ^ 63 - 512 ≤ n.natAbs) :
    r.student = .error (field, .notInteger (Binary64.ofInt n)) := by
  obtain ⟨c, hc, hn⟩ := h.cell
  have hinteger := integer_of_spells hn h.small
  rw [if_neg (by omega)] at hinteger
  have hrule : field.rule (r.cell? field.key) = .error (.notInteger (Binary64.ofInt n)) := by
    rw [hc]
    exact field.rule_of_not_integer h.kind hinteger
  have hall : field ∈ Field.all := by cases field <;> decide
  obtain ⟨before, after, hsplit⟩ := List.append_of_mem hall
  have hbefore : field ∉ before := by
    have hnodup : Field.all.Nodup := by decide
    rw [hsplit, List.nodup_middle, List.nodup_cons] at hnodup
    exact fun hmem => hnodup.1 (List.mem_append_left _ hmem)
  refine student_eq_error_iff.2 ⟨before, after, hsplit, fun f hf => h.rest f ?_, hrule⟩
  rintro rfl
  exact hbefore hf

/-- A student of the record has the rounded integer. -/
theorem entry_of_student {s : Student} (hs : r.student = .ok s) :
    s.entry field = .integer (Binary64.roundedInt n) := by
  have hlt : n.natAbs < 2 ^ 63 - 512 := by
    by_contra hge
    rw [h.student_error (by omega)] at hs
    cases hs
  have hrule := student_eq_ok_iff_rule.1 hs field
  rw [h.rule_ok hlt] at hrule
  exact (Except.ok.inj hrule).symm

/-- What is loaded from a source with the record. -/
theorem entry_of_load {w : Wording} {src : Source} {records : List Record} {d : Dataset} {i : Nat}
    (hrecords : src.Reads records) (hi : records[i]? = some r) (hd : src.load w = .ok d) :
    ∃ s, d.students[i]? = some s ∧ s.entry field = .integer (Binary64.roundedInt n) := by
  rw [hrecords.load] at hd
  obtain ⟨hall, -⟩ := ofRecords_eq_ok_iff_students.1 hd
  have hstudent : (d.students.map Except.ok)[i]? = some r.student := by
    rw [← map_student hall, List.getElem?_map, hi]
    rfl
  rw [List.getElem?_map, Option.map_eq_some_iff] at hstudent
  obtain ⟨s, hs, hr⟩ := hstudent
  exact ⟨s, hs, h.entry_of_student hr.symm⟩

end Record.HoldsInteger

/-- A record with one id behind a record with another is a duplicate exactly if both are rounded to the
same integer. -/
theorem exists_duplicate_iff {q r : Record} {a b : Int} (hq : q.HoldsInteger .studentId a)
    (hr : r.HoldsInteger .studentId b) (ha : a.natAbs < 2 ^ 63 - 512) (hb : b.natAbs < 2 ^ 63 - 512) :
    (∃ id, r.FaultAfter [q] .studentId (.duplicate id)) ↔
      Binary64.roundedInt a = Binary64.roundedInt b := by
  obtain ⟨s, hs⟩ := hq.exists_student ha
  obtain ⟨t, ht⟩ := hr.exists_student hb
  have hsid : s.id = Binary64.roundedInt a := by
    have := hq.entry_of_student hs
    rwa [Student.entry, Entry.integer.injEq] at this
  have htid : t.id = Binary64.roundedInt b := by
    have := hr.entry_of_student ht
    rwa [Student.entry, Entry.integer.injEq] at this
  rw [← hsid, ← htid]
  constructor
  · rintro ⟨id, hfault⟩
    cases hfault with
    | refused h => rw [ht] at h; cases h
    | repeated h hmem h' hid =>
      obtain rfl := List.mem_singleton.1 hmem
      rw [ht] at h
      rw [hs] at h'
      obtain rfl := Except.ok.inj h
      obtain rfl := Except.ok.inj h'
      exact hid
  · intro hid
    exact ⟨t.id, .repeated ht (List.mem_singleton.2 rfl) hs hid⟩

/-- **An integer of a source is rounded to the nearest double.** With less than 64 bits it is loaded as the
integer that is nearest among the doubles, itself if it is one and so up to `2 ^ 53`; within 512 of `2 ^ 63`
it is refused. Two ids are taken for one exactly if they are rounded to one. -/
theorem integers_rounded {r : Record} {field : Field} {n : Int} (h : r.HoldsInteger field n) :
    Json.number? (toString n).toList = some (.int n) ∧
    (n.natAbs < 2 ^ 63 - 512 →
      ∃ s, r.student = .ok s ∧ s.entry field = .integer (Binary64.roundedInt n)) ∧
    (2 ^ 63 - 512 ≤ n.natAbs → r.student = .error (field, .notInteger (Binary64.ofInt n))) ∧
    (∀ (w : Wording) (src : Source) records d (i : Nat), src.Reads records → records[i]? = some r →
      src.load w = .ok d → ∃ s, d.students[i]? = some s ∧ s.entry field = .integer (Binary64.roundedInt n)) ∧
    (∀ y, |(n : ℚ) - Binary64.roundedInt n| ≤ |(n : ℚ) - Binary64.toRat y|) ∧
    (Binary64.roundedInt n = n ↔ ∃ (m : Int) (s : Nat), m.natAbs < 2 ^ 53 ∧ n = m * 2 ^ s) ∧
    (n.natAbs ≤ 2 ^ 53 → Binary64.roundedInt n = n) ∧
    (∀ (q : Record) (a : Int), field = .studentId → q.HoldsInteger .studentId a →
      a.natAbs < 2 ^ 63 - 512 → n.natAbs < 2 ^ 63 - 512 →
      ((∃ id, r.FaultAfter [q] .studentId (.duplicate id)) ↔
        Binary64.roundedInt a = Binary64.roundedInt n)) := by
  refine ⟨Json.number?_toString h.small, fun hlt => ?_, h.student_error, fun _ _ _ _ _ => h.entry_of_load,
    Binary64.abs_sub_roundedInt_le h.small, Binary64.roundedInt_eq_self_iff h.small,
    Binary64.roundedInt_eq_self, ?_⟩
  · obtain ⟨s, hs⟩ := h.exists_student hlt
    exact ⟨s, hs, h.entry_of_student hs⟩
  · rintro q a rfl hq ha hn
    exact exists_duplicate_iff hq h ha hn

/-! ### The first integer that is no double -/

def adaOfId (id : Int) : Student := ⟨id, "Ada", 5, 50, 50, 50, 50, 62.5, 20, 1⟩

/-- A record of the student, with a cell for the id. -/
def recordOfId (id : Cell) : Record :=
  [("student_id", id), ("name", .text "Ada"), ("class", .text "5"), ("comprehension", .text "50"),
    ("attention", .text "50"), ("focus", .text "50"), ("retention", .text "50"),
    ("assessment_score", .text "62.5"), ("engagement_time", .text "20"), ("persona", .text "1")]

theorem holdsInteger_recordOfId {c : Cell} {n : Int} (hc : c.Spells n) (hpos : 0 < n)
    (hsmall : n.natAbs < 2 ^ 63) : (recordOfId c).HoldsInteger .studentId n where
  kind := rfl
  cell := ⟨c, rfl, hc⟩
  small := hsmall
  positive _ := hpos
  rest f hf := by
    have hother : (recordOfId c).cell? f.key = (recordOfId (.number 1)).cell? f.key := by
      cases f with
      | studentId => exact absurd rfl hf
      | _ => rfl
    rw [hother]
    exact Record.exists_student_iff.1 ⟨adaOfId 1, by decide +kernel⟩ f

theorem integers_rounded_recordOfId :
    (∃ s, (recordOfId (.text " 9007199254740993")).student = .ok s ∧
      s.entry .studentId = .integer 9007199254740992) ∧
    (recordOfId (.text "9223372036854775296")).student =
      .error (.studentId, .notInteger 9223372036854775808) := by
  have hloaded := integers_rounded (holdsInteger_recordOfId (n := 9007199254740993)
    (.csv (s := " 9007199254740993") (by decide +kernel)) (by decide) (by decide))
  have hrefused := integers_rounded (holdsInteger_recordOfId (n := 9223372036854775296)
    (.csv (s := "9223372036854775296") (by decide +kernel)) (by decide) (by decide))
  have hvalue : Binary64.roundedInt 9007199254740993 = 9007199254740992 := by decide +kernel
  have hbound : Binary64.ofInt 9223372036854775296 = 9223372036854775808 := by decide +kernel
  exact ⟨hvalue ▸ hloaded.2.1 (by decide), hbound ▸ hrefused.2.2.1 (by decide)⟩

/-- It is loaded as the integer before it, and taken for its duplicate. -/
theorem integers_inexact :
    (recordOfId (.ofJson (.int 9007199254740993))).HoldsInteger .studentId 9007199254740993 ∧
    Dataset.ofRecords [recordOfId (.ofJson (.int 9007199254740993))] =
      .ok ⟨[adaOfId 9007199254740992]⟩ ∧
    Dataset.ofRecords [recordOfId (.ofJson (.int 9007199254740992)),
        recordOfId (.ofJson (.int 9007199254740993))] =
      .error (.malformed 1 .studentId (.duplicate 9007199254740992)) :=
  ⟨holdsInteger_recordOfId .json (by decide) (by decide), by decide +kernel, by decide +kernel⟩

end SkillBoard
