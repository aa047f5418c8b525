import SkillBoard.Cohort.Random
import SkillBoard.Student

/-!
# Drawing a cohort

Sixty made-up students. An aptitude that all skills share makes them correlate, and the score is a
weighted sum of the skills with some noise.
-/

namespace SkillBoard.Cohort

def size : Nat := 60

/-- The first names, which students get in turn. -/
def firstNames : List String :=
  ["Aarav", "Bianca", "Chen", "Diego", "Elif", "Farah", "Gustav", "Hana", "Ismael", "Jade", "Kofi",
    "Lena", "Mateo", "Nadia", "Oskar", "Priya", "Quinn", "Rosa", "Samir", "Tara"]

/-- The initials behind a first name, one for each turn. -/
def lastInitials : List String := ["A.", "B.", "C."]

/-- The name of the `i`-th student: first names repeat with another initial. -/
def name (i : Nat) : String :=
  firstNames[i % firstNames.length]?.getD "" ++ " " ++
    lastInitials[i / firstNames.length % lastInitials.length]?.getD ""

/-- A value rounded to two decimal places, by way of hundredths. -/
def round2 (x : Float) : Float := Binary64.round (x * 100) / 100

/-- A skill from 0 to 100, about a mean that the aptitude shifts. -/
def skill (f : Analysis) (aptitude mean deviation : Float) : StateM Random Float := do
  let noise ← Random.gauss f 0 deviation
  return Binary64.clamp 0 100 (mean + aptitude + noise)

/-- The `i`-th student, not yet in a persona. -/
def student (f : Analysis) (i : Nat) : StateM Random Student := do
  let aptitude ← Random.gauss f 0 12
  let comprehension ← skill f aptitude 65 10
  let attention ← skill f aptitude 60 12
  let focus ← skill f aptitude 62 11
  let retention ← skill f aptitude 64 10
  let engagementNoise ← Random.gauss f 0 8
  let engagementTime := Binary64.clamp 5 90 (35 + aptitude * 0.5 + engagementNoise)
  let scoreNoise ← Random.gauss f 0 4
  let assessmentScore := Binary64.clamp 0 100
    (0.3 * comprehension + 0.25 * attention + 0.2 * focus + 0.15 * retention + 0.3 * engagementTime +
      scoreNoise)
  let grade ← Random.below 6
  return {
    id := i + 1
    name := name i
    grade := 5 + grade
    comprehension := round2 comprehension
    attention := round2 attention
    focus := round2 focus
    retention := round2 retention
    assessmentScore := round2 assessmentScore
    engagementTime := round2 engagementTime
    persona := 0 }

/-- The students of a cohort, not yet in personas. -/
def students (f : Analysis) : StateM Random (List Student) := (List.range size).mapM (student f)

/-- The cohort that a seed gives, not yet in personas. -/
def draw (f : Analysis) (seed : UInt64) : List Student := ((students f).run (Random.ofSeed seed)).1

end SkillBoard.Cohort
