import SkillBoard.Proofs.Source.Loading

/-!
# The sample loads

Its text is read as the text of any JSON file is, and that gives the thirty students.
-/

namespace SkillBoard

/-- What is loaded does not depend on the words for what is not. -/
theorem loadJson_eq_ok_iff (w w' : Wording) {text : String} {d : Dataset} :
    loadJson w text = .ok d ↔ loadJson w' text = .ok d := by
  unfold loadJson
  split
  · exact ⟨nofun, nofun⟩
  · rfl
  · rfl

set_option maxRecDepth 100000 in
theorem size_loadJson_sampleText :
    (loadJson .plain sampleText).toOption.map Dataset.size = some 30 := by
  -- as a list of characters, which is evaluated much faster than the text
  have htext : sampleText = String.ofList _ := rfl
  rw [loadJson, Json.parse?, htext, String.toList_ofList]
  decide +kernel

theorem toOption_eq_some_iff {ε α : Type} {x : Except ε α} {a : α} : x.toOption = some a ↔ x = .ok a := by
  cases x <;> simp [Except.toOption]

theorem exists_loadSample (w : Wording) : ∃ d, loadSample w = .ok d ∧ d.size = 30 := by
  obtain ⟨d, hd, hsize⟩ := Option.map_eq_some_iff.1 size_loadJson_sampleText
  have hplain := toOption_eq_some_iff.1 hd
  exact ⟨d, loadSample_eq_ok_iff.2 ((loadJson_eq_ok_iff w .plain).2 hplain), hsize⟩

end SkillBoard
