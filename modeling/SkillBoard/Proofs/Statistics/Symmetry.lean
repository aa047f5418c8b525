import SkillBoard.Proofs.Binary.Opposite
import SkillBoard.Proofs.Statistics.Ranking

/-!
# Correlations and signs

All steps of a correlation treat its two metrics alike, and none looks at signs.

* Swapping the metrics swaps their moments and changes nothing else (`pearson_comm`).
* Negating one of them negates its mean, its deviations and the mixed moment, and leaves the other moments as
  they are (`Moments.reflected_about`), so the correlation is negated (`opposite_pearson`).

Nothing is asked of the values. Where they are not numbers, or too large, both correlations are zero.
-/

namespace SkillBoard

open Binary64 (Opposite opposite_neg)

namespace Moments

/-- The correlation of so many pairs that have these moments. -/
def correlation (m : Moments) (n : Nat) : Float :=
  let floor := Binary64.ofNat n * epsilon * epsilon
  if m.xx ≤ floor || m.yy ≤ floor then 0
  else
    let r := m.xy / (m.xx * m.yy).sqrt
    if r.isFinite then Binary64.clamp (-1) 1 r else 0

/-- The moments of two lists about the means of the first `n` values. -/
def ofLists (n : Nat) (xs ys : List Float) : Moments :=
  about (total xs / Binary64.ofNat n) (total ys / Binary64.ofNat n) (xs.zip ys)

end Moments

theorem pearson_eq (as bs : List Float) : pearson as bs =
    if as.length < 2 then 0
    else
      match unitScaled? as, unitScaled? bs with
      | some xs, some ys => (Moments.ofLists as.length xs ys).correlation as.length
      | _, _ => 0 :=
  rfl

/-! ## The metrics swapped -/

namespace Moments

/-- The moments with the two lists swapped. -/
def swap (m : Moments) : Moments := ⟨m.xy, m.yy, m.xx⟩

theorem ofLists_swap (n : Nat) (xs ys : List Float) : ofLists n ys xs = (ofLists n xs ys).swap := by
  rw [ofLists, ← List.zip_swap, about, List.foldl_map]
  have hnone : (⟨0, 0, 0⟩ : Moments) = swap ⟨0, 0, 0⟩ := rfl
  rw [hnone]
  refine List.foldl_hom swap fun m p => ?_
  show mk _ _ _ = mk _ _ _
  rw [Binary64.mul_comm]
  rfl

theorem correlation_swap (m : Moments) (n : Nat) : m.swap.correlation n = m.correlation n := by
  unfold correlation swap
  dsimp only
  rw [Bool.or_comm, Binary64.mul_comm m.yy]

end Moments

theorem pearson_comm {as bs : List Float} (h : as.length = bs.length) : pearson as bs = pearson bs as := by
  rw [pearson_eq, pearson_eq, h]
  split_ifs
  · rfl
  · cases unitScaled? as with
    | none => cases unitScaled? bs <;> rfl
    | some xs =>
      cases unitScaled? bs with
      | none => rfl
      | some ys =>
        dsimp only
        rw [Moments.ofLists_swap, Moments.correlation_swap]

/-! ## One metric negated -/

theorem opposite_total (xs : List Float) : Opposite (total xs) (total (xs.map (-·))) := by
  rw [total, total, List.foldl_map]
  refine List.foldl_rel (.zero _ _) fun x _ s t h => ?_
  exact h.add (opposite_neg x)

theorem unitScaled?_neg (xs : List Float) :
    unitScaled? (xs.map (-·)) = (unitScaled? xs).map (List.map (-·)) := by
  unfold unitScaled?
  simp only [List.map_map, Function.comp_def, Binary64.abs_neg, Binary64.neg_div]
  split_ifs
  · rfl
  · rw [Option.map_some, List.map_map]
    rfl

namespace Moments

/-- The second moments are those of the first list negated. -/
structure Reflected (m n : Moments) : Prop where
  xy : Opposite m.xy n.xy
  xx : n.xx = m.xx
  yy : n.yy = m.yy

theorem reflected_ofLists (n : Nat) (xs ys : List Float) :
    (ofLists n xs ys).Reflected (ofLists n (xs.map (-·)) ys) := by
  have hmean := (opposite_total xs).div_right (Binary64.ofNat n)
  rw [ofLists, ofLists, List.zip_map_left, about, about, List.foldl_map]
  refine List.foldl_rel ⟨.zero _ _, rfl, rfl⟩ fun p _ m n h => ?_
  have hdeviation := (opposite_neg p.1).sub hmean
  exact
    { xy := h.xy.add (hdeviation.mul_right _)
      xx := congrArg₂ (· + ·) h.xx hdeviation.mul_self
      yy := congrArg (· + _) h.yy }

theorem Reflected.correlation {m m' : Moments} (h : m.Reflected m') (n : Nat) :
    Opposite (m.correlation n) (m'.correlation n) := by
  have hr := h.xy.div_right (m.xx * m.yy).sqrt
  unfold Moments.correlation
  dsimp only
  rw [h.xx, h.yy, hr.isFinite_eq]
  split_ifs with hfloor hfinite
  · exact .zero _ _
  · exact hr.clamp (by decide) (Binary64.not_isNaN_of_isFinite hfinite)
  · exact .zero _ _

end Moments

theorem opposite_pearson (as bs : List Float) : Opposite (pearson as bs) (pearson (as.map (-·)) bs) := by
  have hzero : Opposite 0 0 := .zero _ _
  rw [pearson_eq, pearson_eq, unitScaled?_neg, List.length_map]
  split_ifs
  · exact hzero
  · cases unitScaled? as with
    | none => exact hzero
    | some xs =>
      cases unitScaled? bs with
      | none => exact hzero
      | some ys => exact (Moments.reflected_ofLists as.length xs ys).correlation as.length

/-- A student with one metric negated. -/
def Student.negate (m : Metric) (s : Student) : Student :=
  match m with
  | .comprehension => { s with comprehension := -s.comprehension }
  | .attention => { s with attention := -s.attention }
  | .focus => { s with focus := -s.focus }
  | .retention => { s with retention := -s.retention }
  | .assessmentScore => { s with assessmentScore := -s.assessmentScore }
  | .engagementTime => { s with engagementTime := -s.engagementTime }

theorem Student.metric_negate (m n : Metric) (s : Student) :
    (s.negate m).metric n = if n = m then -s.metric n else s.metric n := by
  cases m <;> cases n <;> rfl

/-- **A correlation does not depend on the order of its metrics, and negating one of them negates it.** -/
theorem correlation_symmetric (students : List Student) (a b : Metric) :
    correlation students a b = correlation students b a ∧
      (a ≠ b → (correlation (students.map (·.negate a)) a b == -correlation students a b) = true) := by
  refine ⟨pearson_comm (by rw [List.length_map, List.length_map]), fun hab => ?_⟩
  have hnegated : correlation (students.map (·.negate a)) a b =
      pearson ((students.map (·.metric a)).map (-·)) (students.map (·.metric b)) := by
    simp only [correlation, List.map_map, Function.comp_def, Student.metric_negate, if_true, if_neg hab.symm]
  rw [hnegated]
  exact (opposite_pearson _ _).beq_neg (not_isNaN_correlation students a b)

/-- Two students whose attentions cancel out and are of a size that could not be squared. -/
def cancelling : List Student :=
  [⟨1, "Ada", 5, 50, 1e200, 50, 50, 80, 30, 0⟩, ⟨2, "Ben", 5, 50, -1e200, 50, 50, 95, 30, 0⟩]

theorem correlation_symmetric_cancelling : Metric.attention ≠ .assessmentScore ∧
    correlation cancelling .attention .assessmentScore = -1 ∧
    correlation cancelling .attention .assessmentScore = correlation cancelling .assessmentScore .attention ∧
    (correlation (cancelling.map (·.negate .attention)) .attention .assessmentScore ==
      -correlation cancelling .attention .assessmentScore) = true := by
  obtain ⟨hswapped, hnegated⟩ := correlation_symmetric cancelling .attention .assessmentScore
  exact ⟨by decide, by decide +kernel, hswapped, hnegated (by decide)⟩

end SkillBoard
