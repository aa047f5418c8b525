import Mathlib
import SkillBoard.Csv.Printer

/-!
# Written CSV files are read back

`Written` is what may stand for a field in a file: the field itself if it has no octet that means
something, or the field in quotes, whether it needs them or not. `rows_flatten`: rows of such fields are
read as they were written, whatever octets the fields hold; `rows_write` is the case of `write`.
`AllQuoted` are files with all fields in quotes and line ends of any kind (`rows_of_allQuoted`).
-/

namespace SkillBoard.Csv

open Scan (step)

/-- The written forms of a field. -/
inductive Written (f : Field) : List UInt8 → Prop
  | plain (h : needsQuotes f = false) : Written f f
  | quoted : Written f (quoted f)

theorem written_field (f : Field) : Written f (field f) := by
  unfold field
  by_cases h : needsQuotes f = true
  · rw [if_pos h]
    exact .quoted
  · rw [if_neg h]
    exact .plain (Bool.eq_false_iff.2 h)

/-! ## One field -/

variable {done : List (List Field)} {fields : List Field}

theorem outside_of_plain {b : UInt8} (h : (b == quote || b == comma || endsRow b) = false) (s : Scan) :
    s.outside b = { s with octets := b :: s.octets, mode := .plain } := by
  simp only [Bool.or_eq_false_iff, beq_eq_false_iff_ne] at h
  rw [Scan.outside, if_neg h.1.2, if_neg (by simp [h.2])]

theorem foldl_plain {f : Field} (h : needsQuotes f = false) (octets : Field) :
    f.foldl step ⟨done, fields, octets, .plain⟩ = ⟨done, fields, f.reverse ++ octets, .plain⟩ := by
  induction f generalizing octets with
  | nil => rfl
  | cons b f ih =>
    rw [needsQuotes, List.any_cons, Bool.or_eq_false_iff] at h
    rw [List.foldl_cons, step, outside_of_plain h.1, ih h.2, List.reverse_cons, List.append_assoc]
    rfl

theorem step_quoted {b : UInt8} (h : b ≠ quote) (octets : Field) :
    step ⟨done, fields, octets, .quoted⟩ b = ⟨done, fields, b :: octets, .quoted⟩ := if_neg h

theorem foldl_doubled (f octets : Field) :
    (doubled f).foldl step ⟨done, fields, octets, .quoted⟩ =
      ⟨done, fields, f.reverse ++ octets, .quoted⟩ := by
  induction f generalizing octets with
  | nil => rfl
  | cons b f ih =>
    have hb : (if b = quote then [quote, quote] else [b]).foldl step ⟨done, fields, octets, .quoted⟩ =
        ⟨done, fields, b :: octets, .quoted⟩ := by
      by_cases h : b = quote
      · rw [if_pos h, h]
        rfl
      · rw [if_neg h, List.foldl_cons, List.foldl_nil, step_quoted h]
    rw [doubled, List.flatMap_cons, List.foldl_append, hb, ← doubled, ih, List.reverse_cons,
      List.append_assoc]
    rfl

theorem step_quoteSeen {b : UInt8} (h : b ≠ quote) (octets : Field) :
    step ⟨done, fields, octets, .quoteSeen⟩ b = Scan.outside ⟨done, fields, octets, .plain⟩ b := if_neg h

/-- Where a field may begin. -/
def Begins (m : Mode) : Prop := m = .rowStart ∨ m = .fieldStart

theorem step_begins {m : Mode} (hm : Begins m) {b : UInt8} (h : b ≠ quote)
    (hends : m = .rowStart → endsRow b = false) (octets : Field) :
    step ⟨done, fields, octets, m⟩ b = Scan.outside ⟨done, fields, octets, .plain⟩ b := by
  rcases hm with rfl | rfl
  · show (if endsRow b = true then _ else if b = quote then _ else _) = _
    rw [if_neg (by rw [hends rfl]; decide), if_neg h]
    rfl
  · exact if_neg h

/-- Behind a written field the reader has its octets, and knows what ends it. -/
theorem foldl_written {f : Field} {w : List UInt8} (hw : Written f w) (hne : w ≠ []) {m : Mode}
    (hm : Begins m) : ∃ m', (m' = .plain ∨ m' = .quoteSeen) ∧
      w.foldl step ⟨done, fields, [], m⟩ = ⟨done, fields, f.reverse, m'⟩ := by
  cases hw with
  | plain h =>
    refine ⟨.plain, .inl rfl, ?_⟩
    cases f with
    | nil => exact absurd rfl hne
    | cons b f =>
      rw [needsQuotes, List.any_cons, Bool.or_eq_false_iff] at h
      have hb : step ⟨done, fields, [], m⟩ b = ⟨done, fields, [b], .plain⟩ := by
        have hspecial := h.1
        simp only [Bool.or_eq_false_iff, beq_eq_false_iff_ne] at hspecial
        rw [step_begins hm hspecial.1.1 fun _ => hspecial.2, outside_of_plain h.1]
      rw [List.foldl_cons, hb, foldl_plain h.2, List.reverse_cons]
  | quoted =>
    refine ⟨.quoteSeen, .inr rfl, ?_⟩
    have hopen : step ⟨done, fields, [], m⟩ quote = ⟨done, fields, [], .quoted⟩ := by
      rcases hm with rfl | rfl <;> rfl
    have hclose (octets : Field) : step ⟨done, fields, octets, .quoted⟩ quote =
        ⟨done, fields, octets, .quoteSeen⟩ := rfl
    show (quote :: (doubled f ++ [quote])).foldl step _ = _
    rw [List.foldl_cons, hopen, List.foldl_append, foldl_doubled, List.append_nil, List.foldl_cons,
      hclose, List.foldl_nil]

theorem Written.eq_nil {f : Field} (hw : Written f []) : f = [] := by
  cases hw with
  | plain => rfl

/-- What follows a written field is read outside quotes, unless it is a line end before any octet. -/
theorem step_foldl_written {f : Field} {w : List UInt8} (hw : Written f w) {m : Mode} (hm : Begins m)
    {b : UInt8} (hb : b ≠ quote) (hbegun : m = .rowStart → endsRow b = true → w ≠ []) :
    step (w.foldl step ⟨done, fields, [], m⟩) b = Scan.outside ⟨done, fields, f.reverse, .plain⟩ b := by
  by_cases hne : w = []
  · subst hne
    have hends : m = .rowStart → endsRow b = false := by
      intro h
      rw [Bool.eq_false_iff]
      exact fun hb => hbegun h hb rfl
    rw [hw.eq_nil, List.foldl_nil, step_begins hm hb hends, List.reverse_nil]
  · obtain ⟨m', hm', h⟩ := foldl_written hw hne hm
    rw [h]
    rcases hm' with rfl | rfl
    · rfl
    · exact step_quoteSeen hb _

/-! ## Rows -/

/-- A line end behind written fields ends the row. -/
theorem step_foldl_row {fs : List Field} {ws : List (List UInt8)} (hws : List.Forall₂ Written fs ws)
    (hne : ws ≠ []) {m : Mode} (hm : Begins m) (hbegun : m = .rowStart → ws ≠ [[]]) {b : UInt8}
    (hb : endsRow b = true) : step (([comma].intercalate ws).foldl step ⟨done, fields, [], m⟩) b =
      ⟨(fields.reverse ++ fs) :: done, [], [], .rowStart⟩ := by
  have hquote : b ≠ quote := fun h => absurd (h ▸ hb) (by decide)
  have hcomma : b ≠ comma := fun h => absurd (h ▸ hb) (by decide)
  induction hws generalizing fields m with
  | nil => exact absurd rfl hne
  | @cons f w fs ws hw hrest ih =>
    cases ws with
    | nil =>
      obtain rfl := List.forall₂_nil_right_iff.1 hrest
      rw [List.intercalate_singleton,
        step_foldl_written hw hm hquote fun h _ hnil => hbegun h (by rw [hnil]), Scan.outside,
        if_neg hcomma, if_pos hb, ← List.reverse_cons]
      show (⟨(f.reverse.reverse :: fields).reverse :: done, [], [], .rowStart⟩ : Scan) = _
      rw [List.reverse_reverse]
    | cons w' ws =>
      have hend : step (w.foldl step ⟨done, fields, [], m⟩) comma =
          ⟨done, f :: fields, [], .fieldStart⟩ := by
        rw [step_foldl_written hw hm (by decide) fun _ h => absurd h (by decide)]
        show (⟨done, f.reverse.reverse :: fields, [], .fieldStart⟩ : Scan) = _
        rw [List.reverse_reverse]
      rw [List.intercalate_cons_cons, List.append_assoc, List.foldl_append, List.singleton_append,
        List.foldl_cons, hend, ih (by simp) (.inr rfl) (by simp), List.reverse_cons, List.append_assoc]
      rfl

theorem foldl_row {fs : List Field} {ws : List (List UInt8)} (hws : List.Forall₂ Written fs ws)
    (hne : ws ≠ []) {m : Mode} (hm : Begins m) (hbegun : m = .rowStart → ws ≠ [[]]) :
    ([comma].intercalate ws ++ [lineFeed]).foldl step ⟨done, fields, [], m⟩ =
      ⟨(fields.reverse ++ fs) :: done, [], [], .rowStart⟩ := by
  rw [List.foldl_append]
  exact step_foldl_row hws hne hm hbegun rfl

/-- A written row: written fields, and not nothing but an empty line. -/
def WrittenRow (fs : List Field) (bytes : List UInt8) : Prop :=
  ∃ ws, List.Forall₂ Written fs ws ∧ ws ≠ [] ∧ ws ≠ [[]] ∧
    bytes = [comma].intercalate ws ++ [lineFeed]

theorem writtenRow_row {fs : List Field} (h : 2 ≤ fs.length) : WrittenRow fs (row fs) := by
  have hlength : (fs.map field).length = fs.length := List.length_map _
  refine ⟨fs.map field, ?_, ?_, ?_, rfl⟩
  · rw [List.forall₂_map_right_iff, List.forall₂_same]
    exact fun f _ => written_field f
  · intro hnil
    rw [hnil, List.length_nil] at hlength
    omega
  · intro hsingle
    rw [hsingle, List.length_singleton] at hlength
    omega

theorem foldl_rows {rs : List (List Field)} {lines : List (List UInt8)}
    (h : List.Forall₂ WrittenRow rs lines) :
    lines.flatten.foldl step ⟨done, [], [], .rowStart⟩ = ⟨rs.reverse ++ done, [], [], .rowStart⟩ := by
  induction h generalizing done with
  | nil => rfl
  | cons hrow _ ih =>
    obtain ⟨ws, hws, hne, hline, rfl⟩ := hrow
    rw [List.flatten_cons, List.foldl_append, foldl_row hws hne (.inl rfl) (fun _ => hline), ih,
      List.reverse_cons, List.append_assoc]
    rfl

theorem withoutMark_eq_self {bytes : List UInt8} (h : bytes.head? ≠ some 0xEF) :
    withoutMark bytes = bytes := by
  unfold withoutMark
  split
  · exact absurd rfl h
  · rfl

/-- **Written rows are read back**, quoted or not, as long as the file does not begin as a mark does. -/
theorem rows_flatten {rs : List (List Field)} {lines : List (List UInt8)}
    (h : List.Forall₂ WrittenRow rs lines) (hmark : lines.flatten.head? ≠ some 0xEF) :
    rows lines.flatten = rs := by
  rw [rows, withoutMark_eq_self hmark, Scan.start, foldl_rows h]
  simp [Scan.finish]

theorem rows_write {rs : List (List Field)} (h : ∀ r ∈ rs, 2 ≤ r.length)
    (hmark : (write rs).head? ≠ some 0xEF) : rows (write rs) = rs := by
  rw [write, List.flatMap_def] at hmark ⊢
  refine rows_flatten ?_ hmark
  rw [List.forall₂_map_right_iff, List.forall₂_same]
  exact fun r hr => writtenRow_row (h r hr)

/-! ## Files in quotes -/

/-- What stands behind a row: at least one line end, of any kind; more are empty lines. -/
structure LineEnd (e : List UInt8) : Prop where
  ne_nil : e ≠ []
  ends : e.all endsRow = true

def quotedRow (fs : List Field) : List UInt8 := [comma].intercalate (fs.map quoted)

/-- Files of rows whose fields are all in quotes. Behind the last row the line end may be missing. -/
inductive AllQuoted : List (List Field) → List UInt8 → Prop
  | nil : AllQuoted [] []
  | last {fs : List Field} (hfs : fs ≠ []) : AllQuoted [fs] (quotedRow fs)
  | cons {fs : List Field} {e : List UInt8} {rs : List (List Field)} {bytes : List UInt8}
      (hfs : fs ≠ []) (he : LineEnd e) (hrest : AllQuoted rs bytes) :
      AllQuoted (fs :: rs) (quotedRow fs ++ e ++ bytes)

theorem allQuoted_flatMap {rs : List (List Field)} (hrs : ∀ fs ∈ rs, fs ≠ []) {e : List UInt8}
    (he : LineEnd e) : AllQuoted rs (rs.flatMap fun fs => quotedRow fs ++ e) := by
  induction rs with
  | nil => exact .nil
  | cons fs rs ih =>
    obtain ⟨hfs, hrest⟩ := List.forall_mem_cons.1 hrs
    exact .cons hfs he (ih hrest)

theorem step_foldl_quotedRow {fs : List Field} (hfs : fs ≠ []) {b : UInt8} (hb : endsRow b = true) :
    step ((quotedRow fs).foldl step ⟨done, [], [], .rowStart⟩) b = ⟨fs :: done, [], [], .rowStart⟩ := by
  have hwritten : List.Forall₂ Written fs (fs.map quoted) := by
    rw [List.forall₂_map_right_iff, List.forall₂_same]
    exact fun _ _ => .quoted
  have hline : fs.map quoted ≠ [[]] := by
    obtain ⟨f, fs, rfl⟩ := List.exists_cons_of_ne_nil hfs
    simp [quoted]
  exact step_foldl_row hwritten (by simpa using hfs) (.inl rfl) (fun _ => hline) hb

/-- A line end at the end of a file says nothing, unless it is inside quotes. -/
theorem finish_step {s : Scan} {b : UInt8} (hb : endsRow b = true)
    (hend : (step s b).mode = .rowStart) : (step s b).finish = s.finish := by
  obtain ⟨done, fields, octets, m⟩ := s
  have hquote : b ≠ quote := fun h => absurd (h ▸ hb) (by decide)
  have hcomma : b ≠ comma := fun h => absurd (h ▸ hb) (by decide)
  have houtside : Scan.outside ⟨done, fields, octets, .plain⟩ b =
      Scan.endRow ⟨done, fields, octets, .plain⟩ := by
    rw [Scan.outside, if_neg hcomma, if_pos hb]
  cases m with
  | rowStart => rw [step, if_pos hb]
  | fieldStart =>
    rw [step_begins (.inr rfl) hquote (fun h => nomatch h), houtside]
    rfl
  | plain =>
    rw [show step ⟨done, fields, octets, .plain⟩ b = _ from houtside]
    rfl
  | quoted =>
    rw [step_quoted hquote] at hend
    cases hend
  | quoteSeen =>
    rw [step_quoteSeen hquote, houtside]
    rfl

theorem foldl_lineEnd {e : List UInt8} (he : e.all endsRow = true) :
    e.foldl step ⟨done, [], [], .rowStart⟩ = ⟨done, [], [], .rowStart⟩ := by
  induction e with
  | nil => rfl
  | cons b e ih =>
    rw [List.all_cons, Bool.and_eq_true] at he
    rw [List.foldl_cons, step, if_pos he.1, ih he.2]

theorem finish_foldl_allQuoted {rs : List (List Field)} {bytes : List UInt8} (h : AllQuoted rs bytes) :
    (bytes.foldl step ⟨done, [], [], .rowStart⟩).finish = done.reverse ++ rs := by
  induction h generalizing done with
  | nil => exact (List.append_nil _).symm
  | @last fs hfs =>
    have hstep : step ((quotedRow fs).foldl step ⟨done, [], [], .rowStart⟩) lineFeed =
        ⟨fs :: done, [], [], .rowStart⟩ := step_foldl_quotedRow hfs rfl
    rw [← finish_step (b := lineFeed) rfl (by rw [hstep]), hstep]
    exact List.reverse_cons
  | cons hfs he _ ih =>
    obtain ⟨b, e, rfl⟩ := List.exists_cons_of_ne_nil he.ne_nil
    have hends := he.ends
    rw [List.all_cons, Bool.and_eq_true] at hends
    rw [List.foldl_append, List.foldl_append, List.foldl_cons, step_foldl_quotedRow hfs hends.1,
      foldl_lineEnd hends.2, ih, List.reverse_cons, List.append_assoc, List.singleton_append]

theorem head?_quotedRow {fs : List Field} (hfs : fs ≠ []) : (quotedRow fs).head? = some quote := by
  obtain ⟨f, fs, rfl⟩ := List.exists_cons_of_ne_nil hfs
  cases fs with
  | nil => rfl
  | cons f' fs => rfl

/-- **Rows in quotes are read back**, whatever their fields hold and their lines end with. -/
theorem rows_of_allQuoted {rs : List (List Field)} {bytes : List UInt8} (h : AllQuoted rs bytes) :
    rows bytes = rs := by
  have hmark : bytes.head? ≠ some 0xEF := by
    cases h with
    | nil => exact fun h => nomatch h
    | last hfs =>
      rw [head?_quotedRow hfs]
      decide
    | cons hfs =>
      rw [List.append_assoc, List.head?_append, head?_quotedRow hfs, Option.some_or]
      decide
  rw [rows, withoutMark_eq_self hmark]
  exact finish_foldl_allQuoted h

end SkillBoard.Csv
