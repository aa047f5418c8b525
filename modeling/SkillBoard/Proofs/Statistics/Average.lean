import SkillBoard.Cohort.Export
import SkillBoard.Proofs.Source.Loading
import SkillBoard.Proofs.Statistics.Overflow

/-!
# When averages are finite

An average is a sum in source order, and nothing scales the values first. So it is finite exactly if no sum of
the first few values is too large (`total?_isSome`, `average_isFinite_iff`).

* It is always a number, for a sum of finite values never has infinities of both signs to add
  (`not_isNaN_total`).
* However many students there are, the averages of metrics of at most `2 ^ 970` are finite. Larger ones can
  add up to infinity, although their mean is in range (`average_twoLargeScores`).
-/

namespace SkillBoard

open Binary64 (Bounded)

theorem isFinite_of_foldl_add {xs : List Float} {sum : Float} (h : (xs.foldl (· + ·) sum).isFinite = true) :
    sum.isFinite = true := by
  induction xs generalizing sum with
  | nil => exact h
  | cons x xs ih => exact Binary64.isFinite_of_add (ih h)

/-- If one sum is not finite, none behind it is. -/
theorem foldlM_add_isSome (xs : List Float) {sum : Float} (hsum : sum.isFinite = true) :
    (xs.foldlM (fun sum x => Checked.finite? (sum + x)) sum).isSome = (xs.foldl (· + ·) sum).isFinite := by
  induction xs generalizing sum with
  | nil => exact hsum.symm
  | cons x xs ih =>
    rw [List.foldlM_cons, List.foldl_cons]
    by_cases h : (sum + x).isFinite = true
    · rw [Checked.finite?_eq h]
      exact ih h
    · rw [Checked.finite?, if_neg h, Bool.eq_false_iff.2 (mt isFinite_of_foldl_add h)]
      rfl

theorem total?_isSome (xs : List Float) : (Checked.total? xs).isSome = (total xs).isFinite :=
  foldlM_add_isSome xs rfl

theorem not_isNaN_total {xs : List Float} (hxs : ∀ x ∈ xs, x.isFinite = true) :
    (total xs).isNaN = false := by
  have hnone : (-0.0 : Float).isNaN = false := rfl
  refine List.foldlRecOn (motive := fun sum : Float => sum.isNaN = false) xs (· + ·) hnone ?_
  exact fun sum hsum x hx => Binary64.not_isNaN_add hsum (hxs x hx)

theorem average_isFinite_iff (students : List Student) (m : Metric) :
    (average students m).isFinite = (Checked.total? (students.map (·.metric m))).isSome := by
  rw [total?_isSome, average]
  cases students with
  | nil =>
    show (0 : Float).isFinite = (-0.0 : Float).isFinite
    rfl
  | cons s students =>
    rw [List.isEmpty_cons, if_neg Bool.false_ne_true, Bool.eq_iff_iff]
    refine ⟨Binary64.isFinite_of_div, fun h => ?_⟩
    rw [Binary64.isFinite_iff]
    exact (Binary64.magnitude_div_ofNat_le (Nat.succ_pos _) h).trans_lt ((Binary64.isFinite_iff _).1 h)

/-- **An average of finite values is a number, and it is finite exactly if no sum on the way is too large**: in
any case if the values are at most a power of two that, times their number, is below the end of the range. Of
values of at most `2 ^ 970` there may be any number. -/
theorem average_inRange (students : List Student) (m : Metric)
    (hfinite : ∀ s ∈ students, (s.metric m).isFinite = true) :
    ((average students m).isFinite = true ↔
        (Checked.total? (students.map (·.metric m))).isSome = true) ∧
      (students.length < 2 ^ 64 → (average students m).isNaN = false) ∧
      ∀ b, (∀ s ∈ students, Bounded b (s.metric m)) →
        (b ≤ 970 ∨ students.length * 2 ^ b < 2 ^ 1024) → (average students m).isFinite = true := by
  refine ⟨by rw [average_isFinite_iff], fun hlength => ?_, fun b hbound hb => ?_⟩
  · unfold average
    split_ifs with hempty
    · rfl
    · have hpos : 0 < students.length := List.length_pos_iff.2 (mt List.isEmpty_iff.2 hempty)
      exact Binary64.not_isNaN_div (not_isNaN_total (List.forall_mem_map.2 hfinite))
        (Checked.isFinite_floor hlength).1 (Binary64.magnitude_ofNat_pos hpos)
  · have hfits : Binary64.Fits (min (students.map (·.metric m)).length (2 ^ 53) * 2 ^ b) := by
      rcases hb with hb | hb
      · exact Binary64.fits_count _ hb
      · rw [List.length_map]
        exact (Binary64.fits_iff.2 hb).mono (Nat.mul_le_mul_right _ (min_le_left _ _))
    obtain ⟨hsome, -⟩ := Checked.total?_eq hfits (List.forall_mem_map.2 hbound)
    rw [average_isFinite_iff, hsome]
    rfl

/-- Students of whom each score takes back the one before. -/
def alternating : List Student :=
  [⟨1, "Ada", 5, 50, 50, 50, 50, 1e308, 30, 0⟩, ⟨2, "Ben", 5, 50, 50, 50, 50, -1e308, 30, 0⟩,
    ⟨3, "Cem", 6, 50, 50, 50, 50, 1e308, 30, 0⟩]

theorem average_inRange_alternating :
    (∀ s ∈ alternating, (s.metric .assessmentScore).isFinite = true) ∧
      (average alternating .assessmentScore).isFinite = true ∧
      (average alternating .assessmentScore).isNaN = false := by
  have hfinite : ∀ s ∈ alternating, (s.metric .assessmentScore).isFinite = true := by decide +kernel
  obtain ⟨hiff, hnumber, -⟩ := average_inRange alternating .assessmentScore hfinite
  exact ⟨hfinite, hiff.2 (by decide +kernel), hnumber (by decide)⟩

/-- Two students with equal scores. -/
def twoLargeScores : List Student :=
  [⟨1, "Ada", 5, 50, 50, 50, 50, 1e308, 30, 0⟩, ⟨2, "Ben", 5, 50, 50, 50, 50, 1e308, 30, 0⟩]

/-- They can be loaded, their mean is a score of theirs, and what is shown is infinite. -/
theorem average_twoLargeScores :
    Loaded ⟨twoLargeScores⟩ ∧ (∀ s ∈ twoLargeScores, s.assessmentScore = 1e308) ∧
      (average twoLargeScores .assessmentScore).isFinite = false ∧
      ("Avg Score", "inf") ∈ (Overview.of twoLargeScores).cards := by
  have h : (Source.columns (Export.columns twoLargeScores)).load .plain = .ok ⟨twoLargeScores⟩ := by
    decide +kernel
  exact ⟨.source h, by decide +kernel, by decide +kernel, by decide +kernel⟩

end SkillBoard
