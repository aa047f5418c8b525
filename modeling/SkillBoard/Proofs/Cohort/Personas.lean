import Mathlib
import SkillBoard.Cohort.Personas

/-!
# Personas of a cohort are 0, 1 and 2

Whatever the points are, there are at most as many centroids as personas, and the nearest one is one of
them. So a cohort keeps its students, in their order, with nothing but the persona changed
(`assignPersonas_eq`), and that is one of three (`nearest_lt`).
-/

namespace SkillBoard.Cohort

/-- What is kept of a list is one of its values. -/
theorem foldl_ite_mem {α : Type} (better : α → α → Bool) (best : α) (rest : List α) :
    rest.foldl (fun best c => if better c best then c else best) best ∈ best :: rest := by
  induction rest generalizing best with
  | nil => simp
  | cons c rest ih =>
    have hkept := ih (if better c best then c else best)
    rw [List.foldl_cons]
    rcases List.mem_cons.1 hkept with hbest | hrest
    · rw [hbest]
      split
      · simp
      · simp
    · exact List.mem_cons_of_mem _ (List.mem_cons_of_mem _ hrest)

/-- The nearest centroid is one of the centroids. -/
theorem nearest_lt {centroids : List Point} {n : Nat} (h : centroids.length ≤ n) (hn : 0 < n) (p : Point) :
    nearest centroids p < n := by
  unfold nearest
  split
  · exact hn
  next first rest hcentroids =>
    have hmem := foldl_ite_mem (fun c best =>
      Binary64.lineCompare (distance2 p c.1) (distance2 p best.1) == .lt) first rest
    rw [← hcentroids] at hmem
    exact (List.snd_lt_of_mem_zipIdx hmem).trans_le (by omega)

theorem length_refine (points centroids : List Point) :
    (refine points centroids).length = centroids.length := by
  simp [refine]

theorem length_seeds_le (points : List Point) : (seeds points).length ≤ personaCount := by
  unfold seeds
  simpa using List.length_filterMap_le _ (List.range personaCount)

/-- The centroids after some moves. -/
def moved (points : List Point) (n : Nat) : List Point := n.repeat (refine points) (seeds points)

/-- Centroids move, but they stay as many. -/
theorem length_moved (points : List Point) (n : Nat) : (moved points n).length = (seeds points).length := by
  induction n with
  | zero => rfl
  | succ n ih => rw [moved, Nat.repeat, length_refine, ← moved, ih]

theorem length_settled_le (points : List Point) : (settled points).length ≤ personaCount := by
  rw [settled, ← moved, length_moved]
  exact length_seeds_le points

/-- The persona that a list of students gives a student with given skills. -/
def personaOf (students : List Student) (p : Point) : Nat := nearest (settled (standardise students)) p

theorem personaOf_lt (students : List Student) (p : Point) : personaOf students p < personaCount :=
  nearest_lt (length_settled_le _) (by decide) p

/-- The standardised skills of a student among several. -/
def pointOf (students : List Student) (s : Student) : Point :=
  (skills.map fun m => (m, Spread.of (students.map (·.metric m)))).map fun p => p.2.score (s.metric p.1)

theorem standardise_eq (students : List Student) : standardise students = students.map (pointOf students) :=
  rfl

theorem length_standardise (students : List Student) : (standardise students).length = students.length := by
  rw [standardise_eq, List.length_map]

/-- The students stay as they are but for their personas. -/
theorem assignPersonas_eq {students : List Student} (h : personaCount ≤ students.length) :
    assignPersonas students =
      students.map fun s => { s with persona := personaOf students (pointOf students s) } := by
  unfold assignPersonas
  rw [if_neg h.not_gt]
  simp only [personaOf, standardise_eq, List.zipWith_map_right, List.zipWith_self]

end SkillBoard.Cohort
