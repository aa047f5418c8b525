import SkillBoard.Proofs.Decimal.Text
import SkillBoard.Proofs.Table
import SkillBoard.Proofs.Text.Lowercase

/-!
# What a search finds

A search compares lower-case forms of whole texts, and a capital sigma has one inside a word and another
one at its end.

* `search_narrows`: a longer search finds no more than a piece of it, as long as the piece's sigmas end
  words in both or in neither. That is so wherever the piece stands exactly if it is `Text.Settled`, in
  particular for a piece without a capital sigma.
* `search_agrees_iff`: names that sort alike are found by the same searches exactly if their capital
  sigmas end words at the same places, and by the same searches without a sigma in any case.

In both, a search that the sigma spoils is shown after the theorem.
-/

namespace SkillBoard

/-- A student passes a search that occurs in the name, both in lower case, or in the class. -/
theorem matchesSearch_iff {s : Student} {text : String} :
    matchesSearch s text = true ↔
      (Text.lowercase text).toList <:+: (Text.lowercase s.name).toList ∨
        text.toList <:+: (toString s.grade).toList := by
  unfold matchesSearch
  rw [Bool.or_eq_true, Bool.or_eq_true, String.contains_string_iff, String.contains_string_iff,
    beq_iff_eq, or_assoc]
  constructor
  · rintro (rfl | h)
    · exact .inr (List.nil_infix)
    · exact h
  · exact .inr

theorem matchesSearch_name (s : Student) : matchesSearch s s.name = true :=
  matchesSearch_iff.2 (.inl (List.infix_refl _))

/-- A student of whom only the name and the class are told. -/
def studentCalled (name : String) (grade : Int) : Student := ⟨1, name, grade, 0, 0, 0, 0, 0, 0, 0⟩

/-! ## A search and its pieces -/

/-- What finds a text is found with a piece of it, exactly if the piece is in it in lower case too. -/
theorem forall_matchesSearch_iff {piece text : String} (h : piece.toList <:+: text.toList) :
    (∀ s : Student, matchesSearch s text = true → matchesSearch s piece = true) ↔
      (Text.lowercase piece).toList <:+: (Text.lowercase text).toList := by
  constructor
  · intro hall
    by_contra hnot
    -- so the piece is found in any class of a student with the text for a name
    have hclass (grade : Int) : piece.toList <:+: (toString grade).toList :=
      (matchesSearch_iff.1 (hall (studentCalled text grade) (matchesSearch_name _))).resolve_left hnot
    refine hnot ?_
    rw [Text.toList_lowercase]
    cases hpiece : piece.toList with
    | nil => exact List.nil_infix
    | cons c rest =>
      have hmem (grade : Int) : c ∈ (toString grade).toList :=
        (hpiece ▸ hclass grade).subset List.mem_cons_self
      have hzero : c = '0' := List.mem_singleton.1 (hmem 0)
      have hone : c = '1' := List.mem_singleton.1 (hmem 1)
      rw [hzero] at hone
      exact absurd hone (by decide)
  · intro hoccurs s hs
    rw [matchesSearch_iff] at hs ⊢
    rcases hs with hname | hgrade
    · exact .inl (hoccurs.trans hname)
    · exact .inr (h.trans hgrade)

theorem infix_between (pre piece post : String) :
    piece.toList <:+: (pre ++ piece ++ post).toList := by
  rw [String.toList_append, String.toList_append]
  exact List.infix_append _ _ _

/-- The sigmas of a piece end words within a longer text exactly where they do in the piece alone. -/
def KeepsEnds (pre piece post : String) : Prop :=
  Text.EndsAlike [] [] pre.toList.reverse post.toList piece.toList

theorem infix_of_keepsEnds {pre piece post : String} (h : KeepsEnds pre piece post) :
    (Text.lowercase piece).toList <:+: (Text.lowercase (pre ++ piece ++ post)).toList := by
  rw [Text.toList_lowercase, Text.toList_lowercase, String.toList_append, String.toList_append]
  exact Text.infix_of_endsAlike h

theorem rows_subset {v w : TableView} {students : List Student}
    (h : ∀ s, matchesSearch s v.search = true → matchesSearch s w.search = true) :
    v.rows students ⊆ w.rows students := by
  intro i hi
  obtain ⟨s, hs, hfound⟩ := TableView.mem_rows.1 hi
  exact TableView.mem_rows.2 ⟨s, hs, h s hfound⟩

/-- **A longer search narrows**: every student found is found with a piece of the search, exactly if the
piece is in the search in lower case. It is where its sigmas keep their ends of words; then the rows
shown are among those of the piece, and a name finds its students by the piece. A piece narrows so
wherever it stands exactly if it is settled. -/
theorem search_narrows (piece : String) :
    (∀ pre post : String,
      (∀ s : Student, matchesSearch s (pre ++ piece ++ post) = true → matchesSearch s piece = true) ↔
        (Text.lowercase piece).toList <:+: (Text.lowercase (pre ++ piece ++ post)).toList) ∧
    (∀ pre post : String, KeepsEnds pre piece post →
      (∀ (v : TableView) (students : List Student),
        ({ v with search := pre ++ piece ++ post }).rows students ⊆
          ({ v with search := piece }).rows students) ∧
      ∀ s : Student, s.name = pre ++ piece ++ post → matchesSearch s piece = true) ∧
    ((∀ (pre post : String) (s : Student),
      matchesSearch s (pre ++ piece ++ post) = true → matchesSearch s piece = true) ↔
        Text.Settled piece.toList) := by
  have hoccurs (pre post : String) := forall_matchesSearch_iff (infix_between pre piece post)
  refine ⟨hoccurs, fun pre post hkeeps => ?_, ?_, ?_⟩
  · have hnarrows := (hoccurs pre post).2 (infix_of_keepsEnds hkeeps)
    refine ⟨fun v students => rows_subset hnarrows, fun s hs => hnarrows s ?_⟩
    rw [← hs]
    exact matchesSearch_name s
  · intro hall
    by_contra hunsettled
    obtain ⟨pre, post, hnot⟩ := Text.exists_not_infix hunsettled
    have hfound := (hoccurs (String.ofList pre) (String.ofList post)).1 (hall _ _)
    rw [Text.toList_lowercase, Text.toList_lowercase, String.toList_append, String.toList_append,
      String.toList_ofList, String.toList_ofList] at hfound
    exact hnot hfound
  · intro hsettled pre post
    exact (hoccurs pre post).2 (infix_of_keepsEnds (hsettled.endsAlike _ _))

theorem search_narrows_doubled :
    KeepsEnds "ΑΣ" "ΑΣ" "" ∧
    (∀ (v : TableView) (students : List Student),
      ({ v with search := "ΑΣ" ++ "ΑΣ" ++ "" }).rows students ⊆ ({ v with search := "ΑΣ" }).rows students) ∧
    ∀ (pre post : String) (s : Student),
      matchesSearch s (pre ++ "Α" ++ post) = true → matchesSearch s "Α" = true := by
  have hkeeps : KeepsEnds "ΑΣ" "ΑΣ" "" := by
    show Text.EndsAlike [] [] ['Σ', 'Α'] [] ['Α', 'Σ']
    rw [Text.endsAlike_cons, Text.endsAlike_cons]
    refine ⟨fun h => absurd h (by decide), fun _ => ?_, fun _ _ h => by simp at h⟩
    rw [Text.endsWord_eq, Text.endsWord_eq, Text.nearest?_alpha, Text.nearest?_alpha]
  exact ⟨hkeeps, ((search_narrows "ΑΣ").2.1 "ΑΣ" "" hkeeps).1,
    (search_narrows "Α").2.2.2 (Text.settled_of_notMem (by decide))⟩

theorem lowercase_endOfWord : (Text.lowercase "ΑΣ").toList = ['α', 'ς'] := by
  rw [Text.toList_lowercase]
  show Text.lowerAfter [] ['Α', 'Σ'] = _
  rw [Text.lowerAfter_cons_alpha, Text.lowerAfter, if_pos rfl, Text.endsWord_eq, Text.nearest?_alpha]
  rfl

/-- A name is not found by a piece of it whose sigma ends a word only in the piece. -/
theorem matchesSearch_insideWord :
    matchesSearch (studentCalled "ΑΣΑ" 5) ("" ++ "ΑΣ" ++ "Α") = true ∧
    matchesSearch (studentCalled "ΑΣΑ" 5) "ΑΣ" = false := by
  refine ⟨matchesSearch_name _, ?_⟩
  have hname : (Text.lowercase "ΑΣΑ").toList = ['α', 'σ', 'α'] := by
    rw [Text.toList_lowercase]
    show Text.lowerAfter [] ['Α', 'Σ', 'Α'] = _
    rw [Text.lowerAfter_cons_alpha, Text.lowerAfter, Text.lowerAfter_cons_alpha, if_pos rfl,
      Text.endsWord_eq, Text.nearest?_alpha]
    rfl
  rw [Bool.eq_false_iff, ne_eq, matchesSearch_iff, lowercase_endOfWord]
  show ¬(_ <:+: (Text.lowercase "ΑΣΑ").toList ∨ ['Α', 'Σ'] <:+: ['5'])
  rw [hname]
  decide

/-! ## Names that sort alike -/

theorem compare_name_eq_iff {a b : Student} :
    (a.entry .name).compare (b.entry .name) = .eq ↔ Text.foldCase a.name = Text.foldCase b.name := by
  show List.compareLex Ord.compare (Text.foldCase a.name) (Text.foldCase b.name) = .eq ↔ _
  exact Std.LawfulEqCmp.compare_eq_iff_eq

theorem length_lowercase (s : String) :
    (Text.lowercase s).toList.length = (Text.foldCase s).length := by
  have h := congrArg List.length (Text.map_unify_lowerAfter [] s.toList)
  rwa [List.length_map, List.length_map, ← Text.toList_lowercase] at h

theorem sigma_notMem_grade (s : Student) : 'Σ' ∉ (toString s.grade).toList := by
  intro h
  rcases isNumberChar_toString s.grade 'Σ' h with h | h
  · exact absurd h (by decide)
  · exact absurd h (by decide)

/-- Students whose names sort alike are found by the same searches exactly if their names have one
lower-case form. -/
theorem forall_matchesSearch_eq_iff {a b : Student} (hgrade : a.grade = b.grade)
    (hfold : Text.foldCase a.name = Text.foldCase b.name) :
    (∀ text, matchesSearch a text = matchesSearch b text) ↔
      Text.lowercase a.name = Text.lowercase b.name := by
  constructor
  · intro hall
    have hlength : (Text.lowercase a.name).toList.length = (Text.lowercase b.name).toList.length := by
      rw [length_lowercase, length_lowercase, hfold]
    rw [← String.toList_inj]
    rcases matchesSearch_iff.1 ((hall a.name).symm.trans (matchesSearch_name a)) with ha | ha
    · exact ha.eq_of_length hlength
    rcases matchesSearch_iff.1 ((hall b.name).trans (matchesSearch_name b)) with hb | hb
    · exact (hb.eq_of_length hlength.symm).symm
    -- both names occur in the class, so there is no sigma in them
    have ha' : 'Σ' ∉ a.name.toList := fun h => sigma_notMem_grade b (ha.subset h)
    have hb' : 'Σ' ∉ b.name.toList := fun h => sigma_notMem_grade a (hb.subset h)
    rw [Text.toList_lowercase, Text.toList_lowercase, Text.lowerAfter_of_notMem ha',
      Text.lowerAfter_of_notMem hb']
    exact hfold
  · intro hlower text
    rw [Bool.eq_iff_iff, matchesSearch_iff, matchesSearch_iff, hlower, hgrade]

theorem lowercase_eq_iff {s t : String} (h : Text.foldCase s = Text.foldCase t) :
    Text.lowercase s = Text.lowercase t ↔ Text.capitalEnds s = Text.capitalEnds t := by
  rw [← String.toList_inj, Text.toList_lowercase, Text.toList_lowercase]
  exact Text.lowerAfter_eq_iff h

/-- A search without a sigma does not tell names apart that sort alike. -/
theorem infix_lowercase_iff {name name' text : String} (h : Text.foldCase name = Text.foldCase name')
    (hsmall : 'σ' ∉ Text.foldCase text) (hfinal : 'ς' ∉ Text.foldCase text) :
    (Text.lowercase text).toList <:+: (Text.lowercase name).toList ↔
      (Text.lowercase text).toList <:+: (Text.lowercase name').toList := by
  have hcapital : 'Σ' ∉ text.toList := fun hmem =>
    hsmall (List.mem_flatMap.2 ⟨'Σ', hmem, by rw [Text.lowerChar_sigma]; exact List.mem_cons_self⟩)
  have htext : (Text.lowercase text).toList = Text.foldCase text := by
    rw [Text.toList_lowercase, Text.lowerAfter_of_notMem hcapital]
    rfl
  have hunified : (Text.lowercase name).toList.map Text.unify =
      (Text.lowercase name').toList.map Text.unify := by
    rw [Text.toList_lowercase, Text.toList_lowercase, Text.map_unify_lowerAfter,
      Text.map_unify_lowerAfter]
    exact congrArg (List.map Text.unify) h
  rw [htext, ← Text.infix_map_unify_iff hsmall hfinal, hunified, Text.infix_map_unify_iff hsmall hfinal]

/-- **Searching and sorting agree but for sigmas**: two students of one class whose names sort alike are
found by the same searches exactly if the capital sigmas in their names end words at the same places, and
by the same searches without a sigma in any case. -/
theorem search_agrees_iff {a b : Student} (hgrade : a.grade = b.grade)
    (hname : (a.entry .name).compare (b.entry .name) = .eq) :
    ((∀ text, matchesSearch a text = matchesSearch b text) ↔
      Text.capitalEnds a.name = Text.capitalEnds b.name) ∧
    ∀ text, 'σ' ∉ Text.foldCase text → 'ς' ∉ Text.foldCase text →
      matchesSearch a text = matchesSearch b text := by
  have hfold := compare_name_eq_iff.1 hname
  refine ⟨(forall_matchesSearch_eq_iff hgrade hfold).trans (lowercase_eq_iff hfold), ?_⟩
  intro text hsmall hfinal
  rw [Bool.eq_iff_iff, matchesSearch_iff, matchesSearch_iff, hgrade,
    infix_lowercase_iff hfold hsmall hfinal]

theorem search_agrees_insideWord :
    ((studentCalled "ΑΣΑ" 5).entry .name).compare ((studentCalled "ΑσΑ" 5).entry .name) = .eq ∧
    ∀ text, matchesSearch (studentCalled "ΑΣΑ" 5) text = matchesSearch (studentCalled "ΑσΑ" 5) text := by
  have hname :
      ((studentCalled "ΑΣΑ" 5).entry .name).compare ((studentCalled "ΑσΑ" 5).entry .name) = .eq := by
    rw [compare_name_eq_iff]
    show ['Α', 'Σ', 'Α'].flatMap Text.lowerChar = ['Α', 'σ', 'Α'].flatMap Text.lowerChar
    simp only [List.flatMap_cons, Text.lowerChar_sigma, Text.lowerChar_smallSigma]
  have hgrade : (studentCalled "ΑΣΑ" 5).grade = (studentCalled "ΑσΑ" 5).grade := rfl
  refine ⟨hname, (search_agrees_iff hgrade hname).1.2 ?_⟩
  show Text.capitalEndsAfter [] ['Α', 'Σ', 'Α'] = Text.capitalEndsAfter [] ['Α', 'σ', 'Α']
  simp only [Text.capitalEndsAfter, Text.lowerChar_alpha, Text.lowerChar_smallSigma, Text.endsWord_eq,
    Text.nearest?_alpha]
  decide

/-- Names that sort alike are not found alike where the sigma that ends a word is a capital in one. -/
theorem matchesSearch_endOfWord :
    ((studentCalled "ΑΣ" 5).entry .name).compare ((studentCalled "Ασ" 5).entry .name) = .eq ∧
    matchesSearch (studentCalled "ΑΣ" 5) "σ" = false ∧ matchesSearch (studentCalled "Ασ" 5) "σ" = true := by
  have hsearch : (Text.lowercase "σ").toList = ['σ'] := by
    rw [Text.toList_lowercase, Text.lowerAfter_of_notMem (by decide)]
    show ['σ'].flatMap Text.lowerChar = _
    rw [List.flatMap_singleton, Text.lowerChar_smallSigma]
  have hsmall : (Text.lowercase "Ασ").toList = ['α', 'σ'] := by
    rw [Text.toList_lowercase, Text.lowerAfter_of_notMem (by decide)]
    show ['Α', 'σ'].flatMap Text.lowerChar = _
    simp [Text.lowerChar_alpha, Text.lowerChar_smallSigma]
  refine ⟨?_, ?_, ?_⟩
  · rw [compare_name_eq_iff]
    show ['Α', 'Σ'].flatMap Text.lowerChar = ['Α', 'σ'].flatMap Text.lowerChar
    simp only [List.flatMap_cons, Text.lowerChar_sigma, Text.lowerChar_smallSigma]
  · rw [Bool.eq_false_iff, ne_eq, matchesSearch_iff, hsearch]
    show ¬(_ <:+: (Text.lowercase "ΑΣ").toList ∨ ['σ'] <:+: ['5'])
    rw [lowercase_endOfWord]
    decide
  · rw [matchesSearch_iff, hsearch]
    show _ <:+: (Text.lowercase "Ασ").toList ∨ _
    rw [hsmall]
    decide

end SkillBoard
