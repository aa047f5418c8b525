import Mathlib
import SkillBoard.Text.Lowercase

/-!
# What the lower-case form of a text depends on

A capital sigma is the one character whose lower-case form depends on what stands around it.

* `lowerWithin` is the lower-case form of a piece between two texts; the form of a text is made of those
  of its pieces (`lowerAfter_append`). Two places give a piece one form exactly if each of its sigmas ends
  a word at both or at neither (`lowerWithin_eq_iff`).
* A text is `Settled` if no sigma of it can be made to end a word, or kept from it, by what is put around
  the text. `exists_not_infix`: an unsettled text has a surrounding in which its form is nowhere found.
* `capitalEnds` marks in the folded text the capital sigmas that end a word. `lowerAfter_eq_iff`: of texts
  that fold alike, those with the same marks have one lower-case form.
-/

namespace SkillBoard.Text

/-! ## Letters -/

/-- The runs as a list, along which closed terms are quick to evaluate. -/
theorem inRuns_eq (runs : Array (Nat × Nat)) (c : Char) :
    inRuns runs c = runs.toList.any fun (first, last) => first ≤ c.toNat && c.toNat ≤ last := by
  rw [inRuns, Array.any_toList]

theorem lowerChar_eq {c : Char} (hc : c ≠ 'İ') :
    lowerChar c =
      ((lowerRanges.toList.find? (·.covers c)).map fun r =>
        [Char.ofNat ((c.toNat : Int) + r.shift).toNat]).getD [c] := by
  rw [lowerChar, if_neg hc, Array.find?_toList]
  cases lowerRanges.find? (·.covers c) with
  | none => rfl
  | some r => rfl

theorem lowerChar_sigma : lowerChar 'Σ' = ['σ'] := by
  rw [lowerChar_eq (by decide)]
  decide

theorem lowerChar_smallSigma : lowerChar 'σ' = ['σ'] := by
  rw [lowerChar_eq (by decide)]
  decide

theorem lowerChar_alpha : lowerChar 'Α' = ['α'] := by
  rw [lowerChar_eq (by decide)]
  decide

theorem isCased_alpha : isCased 'Α' = true := by
  rw [isCased, inRuns_eq]
  decide

theorem not_isCaseIgnorable_alpha : isCaseIgnorable 'Α' = false := by
  rw [isCaseIgnorable, inRuns_eq]
  decide +kernel

/-! ## Pieces -/

/-- The lower-case form of a piece between two texts, the one before it given backwards. -/
def lowerWithin (before after : List Char) : List Char → List Char
  | [] => []
  | c :: rest =>
    (if c = 'Σ' then [if endsWord before (rest ++ after) then 'ς' else 'σ'] else lowerChar c) ++
      lowerWithin (c :: before) after rest

theorem lowerWithin_nil (before s : List Char) : lowerWithin before [] s = lowerAfter before s := by
  induction s generalizing before with
  | nil => rfl
  | cons c rest ih => rw [lowerWithin, lowerAfter, List.append_nil, ih]

theorem lowerAfter_append (before s t : List Char) :
    lowerAfter before (s ++ t) = lowerWithin before t s ++ lowerAfter (s.reverse ++ before) t := by
  induction s generalizing before with
  | nil => rfl
  | cons c rest ih =>
    rw [List.cons_append, lowerAfter, lowerWithin, ih, List.append_assoc, List.reverse_cons,
      List.append_assoc]
    rfl

theorem lowerAfter_cons_alpha (before s : List Char) :
    lowerAfter before ('Α' :: s) = 'α' :: lowerAfter ('Α' :: before) s := by
  rw [lowerAfter, if_neg (by decide), lowerChar_alpha, List.singleton_append]

/-- Each sigma of a piece ends a word between two texts exactly if it does so between two others. -/
def EndsAlike (before after before' after' s : List Char) : Prop :=
  ∀ front back, s = front ++ 'Σ' :: back →
    endsWord (front.reverse ++ before) (back ++ after) =
      endsWord (front.reverse ++ before') (back ++ after')

theorem endsAlike_cons {before after before' after' s : List Char} {c : Char} :
    EndsAlike before after before' after' (c :: s) ↔
      (c = 'Σ' → endsWord before (s ++ after) = endsWord before' (s ++ after')) ∧
        EndsAlike (c :: before) after (c :: before') after' s := by
  constructor
  · intro h
    refine ⟨fun hc => h [] s (by rw [hc]; rfl), fun front back hs => ?_⟩
    simpa using h (c :: front) back (by rw [hs]; rfl)
  · rintro ⟨hc, hs⟩ front back h
    cases front with
    | nil =>
      obtain ⟨rfl, rfl⟩ := List.cons.inj h
      exact hc rfl
    | cons a front =>
      obtain ⟨rfl, rfl⟩ := List.cons.inj h
      simpa using hs front back rfl

theorem sigma_inj {p q : Bool} : ((if p then 'ς' else 'σ') = if q then 'ς' else 'σ') ↔ p = q := by
  cases p <;> cases q <;> decide

/-- A piece has one form at two places exactly if its sigmas end words alike there. -/
theorem lowerWithin_eq_iff {before after before' after' s : List Char} :
    lowerWithin before after s = lowerWithin before' after' s ↔
      EndsAlike before after before' after' s := by
  induction s generalizing before before' with
  | nil => simp [lowerWithin, EndsAlike]
  | cons c rest ih =>
    rw [lowerWithin, lowerWithin, endsAlike_cons, ← ih]
    by_cases hc : c = 'Σ'
    · rw [if_pos hc, if_pos hc, List.singleton_append, List.singleton_append, List.cons.injEq, sigma_inj]
      simp [hc]
    · rw [if_neg hc, if_neg hc, List.append_cancel_left_eq]
      simp [hc]

instance (before after before' after' s : List Char) :
    Decidable (EndsAlike before after before' after' s) :=
  decidable_of_iff _ lowerWithin_eq_iff

/-- Where its sigmas end words as they do in the piece alone, the form of a text contains that of the
piece. -/
theorem infix_of_endsAlike {pre s post : List Char} (h : EndsAlike [] [] pre.reverse post s) :
    lowerAfter [] s <:+: lowerAfter [] (pre ++ s ++ post) := by
  have hpiece : lowerAfter [] s = lowerWithin pre.reverse post s :=
    (lowerWithin_nil [] s).symm.trans (lowerWithin_eq_iff.2 h)
  rw [List.append_assoc, lowerAfter_append, lowerAfter_append, List.append_nil, hpiece]
  exact List.infix_append' _ _ _

/-! ## Settled texts -/

/-- Whether the nearest character that is not ignorable is cased; nothing if there is none. -/
def nearest? (s : List Char) : Option Bool := (s.find? (!isCaseIgnorable ·)).map isCased

theorem meetsCased_eq (s : List Char) : meetsCased s = (nearest? s).getD false := by
  unfold meetsCased nearest?
  cases s.find? (!isCaseIgnorable ·) with
  | none => rfl
  | some c => rw [Option.map_some, Option.getD_some]

theorem nearest?_append (s t : List Char) : nearest? (s ++ t) = (nearest? s).or (nearest? t) := by
  simp only [nearest?, List.find?_append, Option.map_or]

theorem endsWord_eq (before after : List Char) :
    endsWord before after = ((nearest? before).getD false && !(nearest? after).getD false) := by
  rw [endsWord, meetsCased_eq, meetsCased_eq]

/-- A sigma between these texts ends a word or does not, whatever stands around them: the nearest
character before it is not cased, or the nearest one behind it is, or there is one on either side. -/
def Decides (before after : List Char) : Prop :=
  nearest? before = some false ∨ nearest? after = some true ∨
    nearest? before = some true ∧ nearest? after = some false

/-- Every sigma of the text has what decides about it within the text. -/
def Settled (s : List Char) : Prop :=
  ∀ front back, s = front ++ 'Σ' :: back → Decides front.reverse back

theorem settled_of_notMem {s : List Char} (h : 'Σ' ∉ s) : Settled s := by
  rintro front back rfl
  simp at h

theorem endsWord_append_of_decides {before after : List Char} (h : Decides before after)
    (before' after' : List Char) :
    endsWord (before ++ before') (after ++ after') = endsWord before after := by
  rw [endsWord_eq, endsWord_eq, nearest?_append, nearest?_append]
  rcases h with h | h | ⟨h, h'⟩
  · simp [h]
  · simp [h]
  · simp [h, h']

theorem nearest?_alpha (s : List Char) : nearest? ('Α' :: s) = some true := by
  simp [nearest?, not_isCaseIgnorable_alpha, isCased_alpha]

/-- Where nothing decides, a letter does: behind the sigma it takes a word's end away, before it it
makes one. -/
theorem endsWord_alpha_of_not_decides {before after : List Char} (h : ¬Decides before after) :
    endsWord before after ≠ endsWord before (after ++ ['Α']) ∨
      endsWord before after ≠ endsWord (before ++ ['Α']) after := by
  rw [endsWord_eq, endsWord_eq, endsWord_eq, nearest?_append, nearest?_append, nearest?_alpha]
  unfold Decides at h
  cases hb : nearest? before with
  | none => cases ha : nearest? after <;> simp_all
  | some b => cases b <;> cases ha : nearest? after <;> simp_all

theorem Settled.endsAlike {s : List Char} (h : Settled s) (before after : List Char) :
    EndsAlike [] [] before after s := by
  intro front back hs
  rw [List.append_nil, List.append_nil, endsWord_append_of_decides (h front back hs)]

/-! ## Fewer ends of words -/

/-- The same character, or a sigma that ends a word only on the right. -/
def SigmaLE (x y : Char) : Prop := x = y ∨ x = 'σ' ∧ y = 'ς'

theorem forall₂_sigmaLE_refl (s : List Char) : List.Forall₂ SigmaLE s s :=
  List.forall₂_same.2 fun _ _ => .inl rfl

theorem sigmaLE_of_imp {p q : Bool} (h : p = true → q = true) :
    SigmaLE (if p then 'ς' else 'σ') (if q then 'ς' else 'σ') := by
  cases p <;> cases q <;> simp_all [SigmaLE]

theorem meetsCased_append {s : List Char} (h : meetsCased s = true) (t : List Char) :
    meetsCased (s ++ t) = true := by
  rw [meetsCased_eq] at h ⊢
  rw [nearest?_append]
  cases hs : nearest? s <;> simp_all

/-- With more text before it a piece has no fewer ends of words. -/
theorem lowerWithin_before (before after more s : List Char) :
    List.Forall₂ SigmaLE (lowerWithin before after s) (lowerWithin (before ++ more) after s) := by
  induction s generalizing before with
  | nil => exact .nil
  | cons c rest ih =>
    refine List.rel_append (R := SigmaLE) ?_ (ih (c :: before))
    split
    · refine .cons (sigmaLE_of_imp fun h => ?_) .nil
      rw [endsWord, Bool.and_eq_true] at h ⊢
      exact ⟨meetsCased_append h.1 more, h.2⟩
    · exact forall₂_sigmaLE_refl _

/-- With more text behind it a piece has no more ends of words. -/
theorem lowerWithin_after (before after more s : List Char) :
    List.Forall₂ SigmaLE (lowerWithin before (after ++ more) s) (lowerWithin before after s) := by
  induction s generalizing before with
  | nil => exact .nil
  | cons c rest ih =>
    refine List.rel_append (R := SigmaLE) ?_ (ih (c :: before))
    split
    · refine .cons (sigmaLE_of_imp fun h => ?_) .nil
      rw [endsWord, Bool.and_eq_true, Bool.not_eq_true', Bool.eq_false_iff] at h ⊢
      refine ⟨h.1, fun hmeets => h.2 ?_⟩
      rw [← List.append_assoc]
      exact meetsCased_append hmeets more
    · exact forall₂_sigmaLE_refl _

/-- Texts that differ in ends of words differ in how many sigmas of each kind they have. -/
theorem eq_or_count_lt {xs ys : List Char} (h : List.Forall₂ SigmaLE xs ys) :
    xs = ys ∨ xs.count 'ς' < ys.count 'ς' ∧ ys.count 'σ' < xs.count 'σ' := by
  induction h with
  | nil => exact .inl rfl
  | @cons x y xs ys hxy _ ih =>
    rcases hxy with rfl | ⟨rfl, rfl⟩
    · rcases ih with rfl | ih
      · exact .inl rfl
      · right
        rw [List.count_cons, List.count_cons, List.count_cons, List.count_cons]
        omega
    · right
      rcases ih with rfl | ih
      · simp
      · simp
        omega

/-- A text that is not settled has a surrounding whose lower-case form does not contain the text's
own. -/
theorem exists_not_infix {s : List Char} (h : ¬Settled s) :
    ∃ pre post, ¬lowerAfter [] s <:+: lowerAfter [] (pre ++ s ++ post) := by
  unfold Settled at h
  push Not at h
  obtain ⟨front, back, hs, hdecides⟩ := h
  rcases endsWord_alpha_of_not_decides hdecides with hne | hne
  · -- a letter behind the text takes ends of words away, so there are too few `ς`
    refine ⟨[], ['Α'], fun hoccurs => ?_⟩
    have hform : lowerWithin [] ['Α'] s ≠ lowerWithin [] [] s := fun heq =>
      hne (by simpa using (lowerWithin_eq_iff.1 heq front back hs).symm)
    obtain ⟨hcount, -⟩ := (eq_or_count_lt (lowerWithin_after [] [] ['Α'] s)).resolve_left hform
    have hle := hoccurs.count_le 'ς'
    rw [List.nil_append, lowerAfter_append, List.count_append, ← lowerWithin_nil [] s,
      lowerAfter_cons_alpha, lowerAfter, List.count_cons_of_ne (by decide)] at hle
    exact absurd hcount (Nat.not_lt.2 hle)
  · -- a letter before the text makes ends of words, so there are too few `σ`
    refine ⟨['Α'], [], fun hoccurs => ?_⟩
    have hform : lowerWithin [] [] s ≠ lowerWithin ['Α'] [] s := fun heq =>
      hne (by simpa using lowerWithin_eq_iff.1 heq front back hs)
    obtain ⟨-, hcount⟩ := (eq_or_count_lt (lowerWithin_before [] [] ['Α'] s)).resolve_left hform
    have hle := hoccurs.count_le 'σ'
    rw [List.append_nil, List.singleton_append, lowerAfter_cons_alpha, ← lowerWithin_nil [] s,
      ← lowerWithin_nil _ s, List.count_cons_of_ne (by decide)] at hle
    exact absurd hcount (Nat.not_lt.2 hle)

/-! ## Against folding -/

theorem toList_lowercase (s : String) : (lowercase s).toList = lowerAfter [] s.toList :=
  String.toList_ofList

theorem lowerAfter_of_notMem {s : List Char} (h : 'Σ' ∉ s) (before : List Char) :
    lowerAfter before s = s.flatMap lowerChar := by
  induction s generalizing before with
  | nil => rfl
  | cons c rest ih =>
    rw [List.mem_cons, not_or] at h
    rw [lowerAfter, if_neg (Ne.symm h.1), ih h.2, List.flatMap_cons]

/-- One letter for both small sigmas. -/
def unify (c : Char) : Char := if c = 'ς' then 'σ' else c

theorem map_unify_lowerAfter (before s : List Char) :
    (lowerAfter before s).map unify = (s.flatMap lowerChar).map unify := by
  induction s generalizing before with
  | nil => rfl
  | cons c rest ih =>
    rw [lowerAfter, List.flatMap_cons, List.map_append, List.map_append, ih]
    split
    next hc =>
      rw [hc, lowerChar_sigma]
      cases endsWord before rest <;> rfl
    next => rfl

theorem map_unify_of_notMem {s : List Char} (h : 'ς' ∉ s) : s.map unify = s := by
  have hsame : ∀ c ∈ s, unify c = c := fun c hc => if_neg (by rintro rfl; exact h hc)
  rw [List.map_congr_left hsame, List.map_id']

/-- A text without small sigmas is found alike whether they are told apart or not. -/
theorem infix_map_unify_iff {s t : List Char} (hs : 'σ' ∉ s) (hs' : 'ς' ∉ s) :
    s <:+: t.map unify ↔ s <:+: t := by
  constructor
  · intro h
    obtain ⟨piece, hpiece, rfl⟩ := List.infix_map_iff.1 h
    have hplain : 'ς' ∉ piece := fun hmem => hs (List.mem_map.2 ⟨'ς', hmem, rfl⟩)
    rwa [map_unify_of_notMem hplain]
  · intro h
    rw [← map_unify_of_notMem hs']
    exact h.map unify

/-- For each character of the folded text, whether it stands for a capital sigma that ends a word. -/
def capitalEndsAfter (before : List Char) : List Char → List Bool
  | [] => []
  | c :: rest =>
    (if c = 'Σ' then [endsWord before rest] else (lowerChar c).map fun _ => false) ++
      capitalEndsAfter (c :: before) rest

def capitalEnds (s : String) : List Bool := capitalEndsAfter [] s.toList

/-- The lower-case form is the folded text with its marked sigmas changed. -/
theorem lowerAfter_eq_zipWith (before s : List Char) :
    lowerAfter before s =
      List.zipWith (fun c ends => if ends then 'ς' else c) (s.flatMap lowerChar)
        (capitalEndsAfter before s) := by
  induction s generalizing before with
  | nil => rfl
  | cons c rest ih =>
    rw [lowerAfter, capitalEndsAfter, List.flatMap_cons, ih]
    split
    next hc => rw [hc, lowerChar_sigma]; rfl
    next =>
      rw [List.zipWith_append (by rw [List.length_map]), List.zipWith_map_right]
      simp

/-- The marked places are those where the lower-case form and the folded text differ. -/
theorem capitalEndsAfter_eq_zipWith (before s : List Char) :
    capitalEndsAfter before s =
      List.zipWith (fun c l => c != l) (s.flatMap lowerChar) (lowerAfter before s) := by
  induction s generalizing before with
  | nil => rfl
  | cons c rest ih =>
    rw [lowerAfter, capitalEndsAfter, List.flatMap_cons, ih]
    split
    next hc =>
      rw [hc, lowerChar_sigma]
      cases endsWord before rest <;> rfl
    next =>
      rw [List.zipWith_append rfl]
      simp

/-- Of texts that fold alike, those with the same marks have one lower-case form. -/
theorem lowerAfter_eq_iff {s t : List Char} (h : s.flatMap lowerChar = t.flatMap lowerChar) :
    lowerAfter [] s = lowerAfter [] t ↔ capitalEndsAfter [] s = capitalEndsAfter [] t := by
  constructor
  · intro hlower
    rw [capitalEndsAfter_eq_zipWith, capitalEndsAfter_eq_zipWith, h, hlower]
  · intro hends
    rw [lowerAfter_eq_zipWith, lowerAfter_eq_zipWith, h, hends]

end SkillBoard.Text
