import SkillBoard.Binary
import SkillBoard.Colour
import SkillBoard.Grouping
import SkillBoard.Student

/-!
# Charts

What the three charts plot: bars of the score and three skills, points of attention against score, and
the profile of one student on a radar.
-/

namespace SkillBoard

/-- One named series of values, aligned with a chart's labels. -/
structure Series where
  name : String
  values : List Float
  fill : Colour
  stroke : Colour

/-- A chart over labelled places. -/
structure Chart where
  labels : List String
  series : List Series

/-- Named points of one colour. -/
structure PointSeries where
  name : String
  points : List (Float × Float)
  colour : Colour

/-- A chart of points, with the titles of its axes. -/
structure Scatter where
  xTitle : String
  yTitle : String
  series : List PointSeries

/-! ## Bars -/

/-- The metrics of the bars, with their colours. -/
def barMetrics : List (Metric × Rgb) :=
  [(.assessmentScore, .blue), (.comprehension, .green), (.attention, .yellow), (.focus, .red)]

def skillBars (students : List Student) : Chart where
  labels := students.map (·.name)
  series := barMetrics.map fun (m, rgb) =>
    let colour := Colour.withAlpha rgb 0.6
    ⟨m.label, students.map (·.metric m), colour, colour⟩

/-! ## Points -/

/-- Attention against score, one series for each persona in ascending order. -/
def attentionScatter (students : List Student) (colours : PersonaColours) : Scatter where
  xTitle := Metric.attention.label
  yTitle := Metric.assessmentScore.label
  series :=
    (students.foldl
      (fun groups s =>
        fileUnder s.persona (fun ps => ps.getD [] ++ [(s.attention, s.assessmentScore)]) groups)
      []).map
      fun (persona, points) => ⟨personaLabel persona, points, colours.colourOf persona⟩

/-! ## Radar -/

/-- The axes of the radar, clockwise from the top. -/
def radarMetrics : List Metric :=
  [.comprehension, .attention, .focus, .retention, .engagementTime, .assessmentScore]

def profileRadar (s : Student) : Chart where
  labels := radarMetrics.map Metric.label
  series :=
    [⟨s.name, radarMetrics.map s.metric, Colour.withAlpha .blue 0.2, Colour.withAlpha .blue 1⟩]

/-- The radius of the outer ring: the largest value rounded up to a multiple of 20, at least 20. -/
def radarScale (c : Chart) : Float :=
  let largest := (c.series.flatMap (·.values)).foldl Binary64.max 0
  Binary64.max (Binary64.ceil (largest / 20) * 20) 20

/-- The direction of axis `i` of `n` as a unit vector: the first points up, the others follow
clockwise. -/
def spoke (i n : Nat) : Float × Float :=
  let quarter : Float := 1.5707963267948966
  let turn : Float := 6.283185307179586
  let angle := quarter - turn * Binary64.ofNat i / Binary64.ofNat n
  (angle.cos, angle.sin)

end SkillBoard
