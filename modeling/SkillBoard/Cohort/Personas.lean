import SkillBoard.Sorting
import SkillBoard.Statistics

/-!
# Personas of a cohort

Students are put into three personas by clustering their standardised skills: centroids start at a weak,
a middling and a strong student and move to the mean of their members a fixed number of times.

* `standardise` gives the points, `seeds` the first centroids, `refine` is one move, and
  `assignPersonas` does it all.
-/

namespace SkillBoard.Cohort

abbrev Point := List Float

def skills : List Metric := [.comprehension, .attention, .focus, .retention, .engagementTime]

def personaCount : Nat := 3

def rounds : Nat := 25

/-! ## Standardised skills -/

/-- The mean of a list of values and their deviation from it. -/
structure Spread where
  mean : Float
  deviation : Float

namespace Spread

/-- The mean of `n` values, each divided before it is added. -/
def meanOf (n : Float) (xs : List Float) : Float := xs.foldl (fun sum x => sum + x / n) 0

def of (xs : List Float) : Spread :=
  let n := Binary64.ofNat (max 1 xs.length)
  let mean := meanOf n xs
  ⟨mean, (meanOf n (xs.map fun x => (x - mean) * (x - mean))).sqrt⟩

/-- The distance of a value from the mean in deviations; zero where there is no deviation. -/
def score (s : Spread) (x : Float) : Float :=
  if epsilon < s.deviation then (x - s.mean) / s.deviation else 0

end Spread

def standardise (students : List Student) : List Point :=
  let spreads := skills.map fun m => (m, Spread.of (students.map (·.metric m)))
  students.map fun s => spreads.map fun (m, spread) => spread.score (s.metric m)

/-! ## Clustering -/

/-- The square of the distance of two points. -/
def distance2 (p q : Point) : Float := total (List.zipWith (fun x y => (x - y) * (x - y)) p q)

/-- The points at the ranks of a sixth, a half and five sixths by overall skill. -/
def seeds (points : List Point) : List Point :=
  let ranked := stableSort (fun p q => Binary64.lineCompare (total p) (total q) == .lt) points
  (List.range personaCount).filterMap fun k =>
    ranked[(2 * k + 1) * points.length / (2 * personaCount)]?

/-- The position of the nearest of several centroids, the first of equally near ones. -/
def nearest (centroids : List Point) (p : Point) : Nat :=
  match centroids.zipIdx with
  | [] => 0
  | first :: rest =>
    (rest.foldl
      (fun best c =>
        if Binary64.lineCompare (distance2 p c.1) (distance2 p best.1) == .lt then c else best)
      first).2

def centre (members : List Point) : Point :=
  let n := Binary64.ofNat members.length
  members.foldl (fun sum p => List.zipWith (fun c x => c + x / n) sum p) (skills.map fun _ => 0)

/-- Each centroid moves to the mean of the points nearest to it; one without points stays. -/
def refine (points : List Point) (centroids : List Point) : List Point :=
  centroids.zipIdx.map fun (c, k) =>
    let members := points.filter fun p => nearest centroids p == k
    if members.isEmpty then c else centre members

/-- The centroids before the last assignment. -/
def settled (points : List Point) : List Point :=
  (rounds - 1).repeat (refine points) (seeds points)

/-- The students with their personas; fewer students than personas stay as they are. -/
def assignPersonas (students : List Student) : List Student :=
  if students.length < personaCount then students
  else
    let points := standardise students
    let centroids := settled points
    List.zipWith (fun s p => { s with persona := nearest centroids p }) students points

end SkillBoard.Cohort
