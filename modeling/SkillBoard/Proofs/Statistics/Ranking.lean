import SkillBoard.Proofs.Binary.Line
import SkillBoard.Statistics

/-!
# The ranking of the correlations

Whatever the metrics are, a correlation is a number between `-1` and `1` (`pearson_mem`): the last test
lets nothing through that is not finite. So the ranking, which sorts along the line of all values, sorts
numbers by size (`scoreCorrelations_ranked`).
-/

namespace SkillBoard

theorem pearson_mem (as bs : List Float) : -1 ≤ pearson as bs ∧ pearson as bs ≤ 1 := by
  have hzero : (-1 : Float) ≤ 0 ∧ (0 : Float) ≤ 1 := by decide
  have hends : (-1 : Float) ≤ 1 := by decide
  unfold pearson
  split_ifs
  · exact hzero
  · split
    · dsimp only
      split_ifs with hfloor hfinite
      · exact hzero
      · exact Binary64.clamp_mem hends (Binary64.not_isNaN_of_isFinite hfinite)
      · exact hzero
    · exact hzero

theorem not_isNaN_correlation (students : List Student) (a b : Metric) :
    (correlation students a b).isNaN = false :=
  (Binary64.not_isNaN_of_le (pearson_mem _ _).1).2

/-- The metrics that are ranked, in column order. -/
def rankedMetrics : List Metric := [.comprehension, .attention, .focus, .retention, .engagementTime]

/-- The order of the columns. -/
def InColumnOrder (p q : Metric × Float) : Prop := Metric.all.idxOf p.1 < Metric.all.idxOf q.1

/-- `p` may stand anywhere before `q` in a ranking: `q` is not larger in size, and if `p` is not either, its
column comes first. -/
def Outranks (p q : Metric × Float) : Prop :=
  q.2.abs ≤ p.2.abs ∧ (p.2.abs ≤ q.2.abs → InColumnOrder p q)

/-- The order of the ranking, the larger size first. -/
def bySize (p q : Metric × Float) : Ordering := Binary64.lineCompare q.2.abs p.2.abs

theorem transCmp_bySize (P : Metric × Float → Prop) :
    Std.TransCmp fun p q : Subtype P => bySize p.1 q.1 :=
  transCmp_of_key Ord.compare (fun p : Subtype P => -Binary64.lineKey p.1.2.abs) fun p q => by
    rw [Binary64.compare_neg, ← Std.OrientedCmp.eq_swap]
    rfl

theorem outranks_of_inOrder {p q : Metric × Float} (hp : p.2.isNaN = false) (hq : q.2.isNaN = false)
    (h : InOrder bySize InColumnOrder p q) : Outranks p q := by
  have hsize : bySize p q = Ord.compare (Binary64.magnitude q.2 : Int) (Binary64.magnitude p.2) :=
    Binary64.lineCompare_abs hq hp
  obtain ⟨hle, htie⟩ := h
  rw [hsize, Ne, compare_gt_iff_gt, not_lt, Nat.cast_le] at hle
  rw [hsize, compare_eq_iff_eq, Nat.cast_inj] at htie
  rw [Outranks, Binary64.abs_le_abs_iff hq hp, Binary64.abs_le_abs_iff hp hq]
  exact ⟨hle, fun h => htie (hle.antisymm h)⟩

theorem scoreCorrelations_perm (students : List Student) : (scoreCorrelations students).Perm
    (rankedMetrics.map fun m => (m, correlation students m .assessmentScore)) :=
  stableSort_perm _ _

theorem scoreCorrelations_pairwise (students : List Student) :
    (scoreCorrelations students).Pairwise Outranks := by
  have hnumber : ∀ p ∈ scoreCorrelations students, p.2.isNaN = false := by
    intro p hp
    obtain ⟨m, -, rfl⟩ := List.mem_map.1 ((scoreCorrelations_perm students).mem_iff.1 hp)
    exact not_isNaN_correlation students m _
  have hcolumns : (rankedMetrics.map fun m => (m, correlation students m .assessmentScore)).Pairwise
      InColumnOrder := by
    have hmetrics : rankedMetrics.Pairwise fun m n => Metric.all.idxOf m < Metric.all.idxOf n := by decide
    exact List.pairwise_map.2 hmetrics
  have hsorted := pairwise_stableSort bySize (transCmp_bySize fun _ => True) (fun _ _ => trivial) hcolumns
  exact hsorted.imp_of_mem fun hp hq => outranks_of_inOrder (hnumber _ hp) (hnumber _ hq)

/-- **The ranking holds each metric but the score once, with its correlation**, which is a number between
`-1` and `1`; sizes do not increase, and of equal ones the first column comes first. -/
theorem scoreCorrelations_ranked (students : List Student) :
    ((scoreCorrelations students).map Prod.fst).Perm rankedMetrics ∧
      (∀ p ∈ scoreCorrelations students, p.2 = correlation students p.1 .assessmentScore ∧
        p.2.isNaN = false ∧ -1 ≤ p.2 ∧ p.2 ≤ 1) ∧
      (scoreCorrelations students).Pairwise Outranks := by
  have hperm := scoreCorrelations_perm students
  refine ⟨?_, fun p hp => ?_, scoreCorrelations_pairwise students⟩
  · have hmetrics := hperm.map Prod.fst
    rwa [List.map_map] at hmetrics
  · obtain ⟨m, -, rfl⟩ := List.mem_map.1 (hperm.mem_iff.1 hp)
    exact ⟨rfl, not_isNaN_correlation students m _, pearson_mem _ _⟩

end SkillBoard
