import SkillBoard.Decimal.Layout
import SkillBoard.Sorting
import SkillBoard.Student

/-!
# Statistics

Averages of a metric, correlations of two, and what the overview shows of them. All sums run in source
order.

* `correlation` scales both metrics by their largest size first, so that sums of squares stay in
  range; it is `0` where one of them does not vary.
* `scoreCorrelations` ranks the metrics by the size of their correlation with the score.
-/

namespace SkillBoard

/-- The sum of a list of values. It starts at `-0`, so that a list of negative zeros has sum `-0`. -/
def total (xs : List Float) : Float := xs.foldl (· + ·) (-0.0)

/-- The mean of a metric; `0` for no students. -/
def average (students : List Student) (m : Metric) : Float :=
  if students.isEmpty then 0
  else total (students.map (·.metric m)) / Binary64.ofNat students.length

/-- The distance of `1` to the next larger value. -/
def epsilon : Float := Binary64.ofRatio false 1 (1 <<< 52)

/-- The values divided by their largest size; nothing if that is zero or not finite. -/
def unitScaled? (xs : List Float) : Option (List Float) :=
  let scale := (xs.map Float.abs).foldl Binary64.max 0
  if scale == 0 || !scale.isFinite then none else some (xs.map (· / scale))

/-- Sums of products of deviations from the means: of the two lists with each other, of the first and of
the second with itself. -/
structure Moments where
  xy : Float
  xx : Float
  yy : Float

def Moments.about (meanX meanY : Float) (pairs : List (Float × Float)) : Moments :=
  pairs.foldl
    (fun m (x, y) =>
      let dx := x - meanX
      let dy := y - meanY
      ⟨m.xy + dx * dy, m.xx + dx * dx, m.yy + dy * dy⟩)
    ⟨0, 0, 0⟩

/-- The correlation of two lists of values of one length. -/
def pearson (as bs : List Float) : Float :=
  if as.length < 2 then 0
  else
    match unitScaled? as, unitScaled? bs with
    | some xs, some ys =>
      let n := Binary64.ofNat as.length
      let m := Moments.about (total xs / n) (total ys / n) (xs.zip ys)
      let floor := n * epsilon * epsilon
      if m.xx ≤ floor || m.yy ≤ floor then 0
      else
        let r := m.xy / (m.xx * m.yy).sqrt
        if r.isFinite then Binary64.clamp (-1) 1 r else 0
    | _, _ => 0

def correlation (students : List Student) (a b : Metric) : Float :=
  pearson (students.map (·.metric a)) (students.map (·.metric b))

/-- The correlation of each other metric with the score, the largest in size first. -/
def scoreCorrelations (students : List Student) : List (Metric × Float) :=
  let all := (Metric.all.filter (· ≠ .assessmentScore)).map fun m =>
    (m, correlation students m .assessmentScore)
  stableSort (fun a b => Binary64.lineCompare b.2.abs a.2.abs == .lt) all

/-- The headline numbers. -/
structure Overview where
  count : Nat
  score : Float
  comprehension : Float
  attention : Float
  focus : Float
  deriving DecidableEq

namespace Overview

def of (students : List Student) : Overview where
  count := students.length
  score := average students .assessmentScore
  comprehension := average students .comprehension
  attention := average students .attention
  focus := average students .focus

/-- The cards that show them: title and value. -/
def cards (o : Overview) : List (String × String) :=
  [("Avg Score", Decimal.fixed 2 o.score), ("Avg Comprehension", Decimal.fixed 2 o.comprehension),
    ("Avg Attention", Decimal.fixed 2 o.attention), ("Avg Focus", Decimal.fixed 2 o.focus)]

end Overview

end SkillBoard
