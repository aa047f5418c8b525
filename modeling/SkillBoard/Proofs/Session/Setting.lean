import SkillBoard.Proofs.Table
import SkillBoard.Session

/-!
# What a sort setting says

A sort setting is a key, then perhaps a colon and a word for a direction, and blanks do not count around
either.

* `Text.Trims` says what a text is without the blanks around it, `Direction.NamedBy` which texts name a
  direction, and `Setting.Says` what a setting says.
* `applySetting_obeys`: every setting says one thing. A session takes it on and changes nothing else, or
  nothing at all if no field has the key.
-/

namespace SkillBoard

/-! ## Blanks around a text -/

namespace Text

/-- The text `t` is `s` without the blanks around it. -/
structure Trims (s t : List Char) : Prop where
  between : ∃ front back, s = front ++ t ++ back ∧ (∀ c ∈ front, isBlank c = true) ∧
    ∀ c ∈ back, isBlank c = true
  first : ∀ c, t.head? = some c → isBlank c = false
  last : ∀ c, t.getLast? = some c → isBlank c = false

theorem dropWhile_blank {front s : List Char} (hfront : ∀ c ∈ front, isBlank c = true)
    (hs : ∀ c, s.head? = some c → isBlank c = false) : (front ++ s).dropWhile isBlank = s := by
  rw [List.dropWhile_append_of_pos hfront]
  cases s with
  | nil => rfl
  | cons c s => rw [List.dropWhile_cons, hs c rfl]; rfl

theorem not_isBlank_of_head?_dropWhile {s : List Char} {c : Char}
    (h : (s.dropWhile isBlank).head? = some c) : isBlank c = false := by
  have hhead := List.head?_dropWhile_not isBlank s
  rw [h] at hhead
  exact hhead

theorem Trims.eq {s t : List Char} (h : Trims s t) : trimList s = t := by
  obtain ⟨front, back, rfl, hfront, hback⟩ := h.between
  have hblanks : ∀ c ∈ back.reverse, isBlank c = true := fun c hc => hback c (List.mem_reverse.1 hc)
  have hlast : ∀ c, t.reverse.head? = some c → isBlank c = false := by
    rw [List.head?_reverse]
    exact h.last
  unfold trimList
  cases t with
  | nil =>
    have hall : ∀ c ∈ front ++ [] ++ back, isBlank c = true := by
      simpa [or_imp, forall_and] using ⟨hfront, hback⟩
    rw [List.dropWhile_eq_nil_iff.2 hall]
    rfl
  | cons a t =>
    have hstart : (front ++ (a :: t ++ back)).dropWhile isBlank = a :: t ++ back :=
      dropWhile_blank hfront fun c hc => h.first c hc
    rw [List.append_assoc, hstart, List.reverse_append, dropWhile_blank hblanks hlast,
      List.reverse_reverse]

/-- The blanks at the end of a text. -/
def blanksBehind (s : List Char) : List Char := (s.reverse.takeWhile isBlank).reverse

theorem dropWhile_eq_append (s : List Char) :
    s.dropWhile isBlank = trimList s ++ blanksBehind (s.dropWhile isBlank) := by
  rw [trimList, blanksBehind, ← List.reverse_append, List.takeWhile_append_dropWhile,
    List.reverse_reverse]

theorem trims_trimList (s : List Char) : Trims s (trimList s) where
  between := by
    refine ⟨s.takeWhile isBlank, blanksBehind (s.dropWhile isBlank), ?_,
      fun _ => List.mem_takeWhile_imp, fun c hc => List.mem_takeWhile_imp (List.mem_reverse.1 hc)⟩
    rw [List.append_assoc, ← dropWhile_eq_append, List.takeWhile_append_dropWhile]
  first c hc := by
    refine not_isBlank_of_head?_dropWhile (s := s) ?_
    rw [dropWhile_eq_append, List.head?_append, hc]
    rfl
  last c hc := by
    rw [trimList, List.getLast?_reverse] at hc
    exact not_isBlank_of_head?_dropWhile hc

theorem trims_iff {s t : List Char} : Trims s t ↔ t = trimList s :=
  ⟨fun h => h.eq.symm, fun h => h ▸ trims_trimList s⟩

theorem trim_eq_of_trims {s t : String} (h : Trims s.toList t.toList) : trim s = t := by
  rw [trim, h.eq, String.ofList_toList]

theorem trims_trim (s : String) : Trims s.toList (trim s).toList := by
  rw [trim, String.toList_ofList]
  exact trims_trimList s.toList

end Text

/-! ## Directions -/

namespace Direction

/-- The word for a direction and its abbreviation. -/
def words : Direction → List String
  | ascending => ["asc", "ascending"]
  | descending => ["desc", "descending"]

/-- A text is a word for the direction in any ASCII case, between blanks. -/
def NamedBy (d : Direction) (text : String) : Prop :=
  ∃ word : String, Text.Trims text.toList word.toList ∧ word.map Char.toLower ∈ d.words

theorem namedBy_iff {d : Direction} {text : String} :
    d.NamedBy text ↔ (Text.trim text).map Char.toLower ∈ d.words := by
  constructor
  · rintro ⟨word, htrims, hword⟩
    rwa [Text.trim_eq_of_trims htrims]
  · intro h
    exact ⟨Text.trim text, Text.trims_trim text, h⟩

theorem parse?_eq_some_iff {d : Direction} {text : String} : parse? text = some d ↔ d.NamedBy text := by
  rw [namedBy_iff, parse?]
  generalize (Text.trim text).map Char.toLower = word
  cases d with
  | ascending => split <;> simp_all [words]
  | descending => split <;> simp_all [words]

end Direction

/-! ## Settings -/

theorem Field.ofKey?_eq_some_iff {key : String} {field : Field} :
    Field.ofKey? key = some field ↔ field.key = key := by
  constructor
  · intro h
    exact eq_of_beq (List.find?_some (p := fun f : Field => f.key == key) h)
  · rintro rfl
    cases field <;> decide

namespace Setting

/-- What a setting says: the key before its first colon, or the whole if there is none, and the direction
that all behind that colon names, if it names one. -/
inductive Says (setting : String) : String → Option Direction → Prop
  | key {key : String} (hcolon : ':' ∉ setting.toList) (hkey : Text.Trims setting.toList key.toList) :
      Says setting key none
  | named {front back key : String} {d : Direction} (hsetting : setting = front ++ ":" ++ back)
      (hcolon : ':' ∉ front.toList) (hkey : Text.Trims front.toList key.toList) (hd : d.NamedBy back) :
      Says setting key (some d)
  | unnamed {front back key : String} (hsetting : setting = front ++ ":" ++ back)
      (hcolon : ':' ∉ front.toList) (hkey : Text.Trims front.toList key.toList)
      (hnone : ∀ d : Direction, ¬d.NamedBy back) : Says setting key none

/-- The key and the direction that the table reads off a setting. -/
def read (setting : String) : String × Option Direction :=
  (Text.trim (String.ofList (setting.toList.takeWhile (· ≠ ':'))),
    match setting.toList.dropWhile (· ≠ ':') with
    | _ :: d => Direction.parse? (String.ofList d)
    | [] => none)

theorem applySetting?_eq (v : TableView) (setting : String) :
    v.applySetting? setting = (v.sortByKey? (read setting).1).map fun sorted =>
      { sorted with direction := (read setting).2.getD v.direction } := rfl

theorem forall_ne_of_notMem {s : List Char} (h : ':' ∉ s) : ∀ c ∈ s, decide (c ≠ ':') = true :=
  fun _ hc => decide_eq_true fun heq => h (heq ▸ hc)

theorem read_of_notMem {setting : String} (h : ':' ∉ setting.toList) :
    read setting = (Text.trim setting, none) := by
  have hall := forall_ne_of_notMem h
  rw [read, List.takeWhile_eq_self_iff.2 hall, List.dropWhile_eq_nil_iff.2 hall, String.ofList_toList]

theorem read_append {front : String} (h : ':' ∉ front.toList) (back : String) :
    read (front ++ ":" ++ back) = (Text.trim front, Direction.parse? back) := by
  have hall := forall_ne_of_notMem h
  have hlist : (front ++ ":" ++ back).toList = front.toList ++ ':' :: back.toList := by
    rw [String.toList_append, String.toList_append, List.append_assoc]
    rfl
  have hfront : (front ++ ":" ++ back).toList.takeWhile (· ≠ ':') = front.toList := by
    rw [hlist, List.takeWhile_append_of_pos hall]
    simp
  have hback : (front ++ ":" ++ back).toList.dropWhile (· ≠ ':') = ':' :: back.toList := by
    rw [hlist, List.dropWhile_append_of_pos hall]
    simp
  rw [read, hfront, hback, String.ofList_toList]
  show (Text.trim front, Direction.parse? (String.ofList back.toList)) = _
  rw [String.ofList_toList]

theorem Says.read_eq {setting key : String} {direction : Option Direction}
    (h : Says setting key direction) : read setting = (key, direction) := by
  cases h with
  | key hcolon hkey => rw [read_of_notMem hcolon, Text.trim_eq_of_trims hkey]
  | named hsetting hcolon hkey hd =>
    rw [hsetting, read_append hcolon, Text.trim_eq_of_trims hkey, Direction.parse?_eq_some_iff.2 hd]
  | unnamed hsetting hcolon hkey hnone =>
    have hparse : ∀ d, Direction.parse? _ ≠ some d := fun d hd =>
      hnone d (Direction.parse?_eq_some_iff.1 hd)
    rw [hsetting, read_append hcolon, Text.trim_eq_of_trims hkey,
      Option.eq_none_iff_forall_ne_some.2 hparse]

theorem exists_colon {setting : String} (h : ':' ∈ setting.toList) :
    ∃ front back : String, setting = front ++ ":" ++ back ∧ ':' ∉ front.toList := by
  obtain ⟨front, back, hsetting, hfront⟩ := List.eq_append_cons_of_mem h
  refine ⟨String.ofList front, String.ofList back, ?_, by rwa [String.toList_ofList]⟩
  rw [← String.toList_inj, hsetting]
  simp

theorem says_read (setting : String) : Says setting (read setting).1 (read setting).2 := by
  by_cases hcolon : ':' ∈ setting.toList
  · obtain ⟨front, back, hsetting, hfront⟩ := exists_colon hcolon
    rw [hsetting, read_append hfront]
    cases hparse : Direction.parse? back with
    | none =>
      refine .unnamed rfl hfront (Text.trims_trim front) fun d hd => ?_
      rw [Direction.parse?_eq_some_iff.2 hd] at hparse
      cases hparse
    | some d => exact .named rfl hfront (Text.trims_trim front) (Direction.parse?_eq_some_iff.1 hparse)
  · rw [read_of_notMem hcolon]
    exact .key hcolon (Text.trims_trim setting)

section

variable {setting key : String} {direction : Option Direction} (h : Says setting key direction)

include h

theorem Says.applySetting?_eq_none (hunknown : ∀ field : Field, field.key ≠ key) (v : TableView) :
    v.applySetting? setting = none := by
  have hnone : Field.ofKey? key = none :=
    Option.eq_none_iff_forall_ne_some.2 fun field hfield =>
      hunknown field (Field.ofKey?_eq_some_iff.1 hfield)
  rw [applySetting?_eq, h.read_eq, TableView.sortByKey?, hnone, Option.map_none, Option.map_none]

theorem Says.applySetting?_eq_some {field : Field} (hfield : field.key = key) (v : TableView) :
    v.applySetting? setting = some ⟨v.search, field, direction.getD v.direction⟩ := by
  rw [applySetting?_eq, h.read_eq, TableView.sortByKey?, Field.ofKey?_eq_some_iff.2 hfield,
    Option.map_some, Option.map_some]

end

end Setting

namespace Session

/-- **A sort setting is taken on as a whole or not at all.** Every setting says one key and at most one
direction. With a key that no field has, nothing changes; with a field's key the table is sorted by that
field, in the direction said or else the old one, and nothing else changes but the rows. -/
theorem applySetting_obeys (s : Session) (setting : String) :
    (∃! said : String × Option Direction, Setting.Says setting said.1 said.2) ∧
    ∀ (key : String) (direction : Option Direction), Setting.Says setting key direction →
      ((∀ field : Field, field.key ≠ key) → s.perform (.applySetting setting) = s) ∧
      ∀ field : Field, field.key = key →
        s.perform (.applySetting setting) = { s with
          table := ⟨s.table.search, field, direction.getD s.table.direction⟩
          visible := TableView.rows ⟨s.table.search, field, direction.getD s.table.direction⟩
            s.students } := by
  refine ⟨⟨Setting.read setting, Setting.says_read setting, ?_⟩, ?_⟩
  · intro said hsaid
    exact hsaid.read_eq.symm
  intro key direction hsaid
  refine ⟨fun hunknown => ?_, fun field hfield => ?_⟩
  · show s.applySetting setting = s
    unfold applySetting
    rw [hsaid.applySetting?_eq_none hunknown]
  · show s.applySetting setting = _
    unfold applySetting
    rw [hsaid.applySetting?_eq_some hfield]
    rfl

theorem applySetting_obeys_twoZeros :
    Setting.Says " class :\tASCending " "class" (some .ascending) ∧
    (ofDataset ⟨twoZeros⟩).perform (.applySetting " class :\tASCending ") =
      { ofDataset ⟨twoZeros⟩ with
        table := ⟨"", .grade, .ascending⟩
        visible := TableView.rows ⟨"", .grade, .ascending⟩ twoZeros } ∧
    Setting.Says "name:asc:desc" "name" none ∧
    (ofDataset ⟨twoZeros⟩).perform (.applySetting "name:asc:desc") =
      { ofDataset ⟨twoZeros⟩ with
        table := ⟨"", .name, .descending⟩
        visible := TableView.rows ⟨"", .name, .descending⟩ twoZeros } ∧
    Setting.Says "height:asc" "height" (some .ascending) ∧
    (ofDataset ⟨twoZeros⟩).perform (.applySetting "height:asc") = ofDataset ⟨twoZeros⟩ := by
  have hclass : Setting.Says " class :\tASCending " "class" (some .ascending) :=
    .named (show _ = " class " ++ ":" ++ "\tASCending " from rfl) (by decide)
      (Text.trims_iff.2 (by decide)) (Direction.namedBy_iff.2 (by decide +kernel))
  have hname : Setting.Says "name:asc:desc" "name" none := by
    refine .unnamed (show _ = "name" ++ ":" ++ "asc:desc" from rfl) (by decide)
      (Text.trims_iff.2 (by decide)) fun d => ?_
    rw [Direction.namedBy_iff]
    cases d <;> decide +kernel
  have hheight : Setting.Says "height:asc" "height" (some .ascending) :=
    .named (show _ = "height" ++ ":" ++ "asc" from rfl) (by decide)
      (Text.trims_iff.2 (by decide)) (Direction.namedBy_iff.2 (by decide +kernel))
  refine ⟨hclass, ?_, hname, ?_, hheight, ?_⟩
  · exact ((applySetting_obeys _ _).2 _ _ hclass).2 .grade rfl
  · exact ((applySetting_obeys _ _).2 _ _ hname).2 .name rfl
  · exact ((applySetting_obeys _ _).2 _ _ hheight).1 (by intro field; cases field <;> decide)

end Session

end SkillBoard
