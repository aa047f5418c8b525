import SkillBoard.Proofs.Binary.Sizes
import SkillBoard.Proofs.Runs
import SkillBoard.Proofs.Statistics.Symmetry

/-!
# Correlations do not overflow

`Checked.correlation?` is the same run as `correlation` with each result checked to be finite and each divisor
not to be zero. It has no way out for a quotient that is not finite. Where all metrics are finite, it comes to
its end with the same correlation (`correlation_inRange`).

* Scaled values, and so their means, are at most one (`Checked.unitScaled?_eq`, `Checked.mean?_eq`).
* Deviations are at most two and their products at most four, so no moment is larger than four times `2 ^ 53`,
  for any number of students (`Checked.about?_eq`).
* Moments above the floor are so far above zero that their product is not rounded to zero
  (`Checked.above_floor`), and its root is so large that the quotient is finite (`Checked.ratio?_eq`).
-/

namespace SkillBoard

open Binary64 (AtMost Bounded Fits magnitude rank isNegative units)

namespace Checked

/-- The value, if it is finite. -/
def finite? (x : Float) : Option Float := if x.isFinite then some x else none

/-- The quotient, if it is finite and the divisor is not zero. -/
def quotient? (x y : Float) : Option Float := if y == 0 then none else finite? (x / y)

def total? (xs : List Float) : Option Float := xs.foldlM (fun sum x => finite? (sum + x)) (-0.0)

def unitScaled? (xs : List Float) : Option (Option (List Float)) := do
  let scale ← finite? ((xs.map Float.abs).foldl Binary64.max 0)
  if scale == 0 then some none else some (some (← xs.mapM fun x => quotient? x scale))

def about? (meanX meanY : Float) (pairs : List (Float × Float)) : Option Moments :=
  pairs.foldlM
    (fun m (x, y) => do
      let dx ← finite? (x - meanX)
      let dy ← finite? (y - meanY)
      let xy ← finite? (m.xy + (← finite? (dx * dy)))
      let xx ← finite? (m.xx + (← finite? (dx * dx)))
      let yy ← finite? (m.yy + (← finite? (dy * dy)))
      some ⟨xy, xx, yy⟩)
    ⟨0, 0, 0⟩

/-- The quotient of the moments. There is nothing to fall back on if it is not finite. -/
def ratio? (m : Moments) (n : Nat) : Option Float :=
  let floor := Binary64.ofNat n * epsilon * epsilon
  if m.xx ≤ floor || m.yy ≤ floor then some 0
  else do
    let product ← finite? (m.xx * m.yy)
    let root ← finite? product.sqrt
    let r ← quotient? m.xy root
    some (Binary64.clamp (-1) 1 r)

def pearson? (as bs : List Float) : Option Float :=
  if as.length < 2 then some 0
  else do
    match ← unitScaled? as, ← unitScaled? bs with
    | some xs, some ys =>
      let n := Binary64.ofNat as.length
      let meanX ← quotient? (← total? xs) n
      let meanY ← quotient? (← total? ys) n
      ratio? (← about? meanX meanY (xs.zip ys)) as.length
    | _, _ => some 0

/-- The correlation of two metrics, or nothing if some result on the way is not finite or a divisor is zero. -/
def correlation? (students : List Student) (a b : Metric) : Option Float :=
  pearson? (students.map (·.metric a)) (students.map (·.metric b))

theorem finite?_eq {x : Float} (h : x.isFinite = true) : finite? x = some x := if_pos h

theorem quotient?_eq {x y : Float} (hy : y.isNaN = false) (hpos : 0 < magnitude y)
    (h : (x / y).isFinite = true) : quotient? x y = some (x / y) := by
  rw [quotient?, if_neg (mt (Binary64.beq_zero_iff hy).1 hpos.ne'), finite?_eq h]

/-! ## Sums and means -/

/-- The bound of a sum of so many values of at most `2 ^ b` is passed on from each sum to the next. -/
theorem finite?_add {n b : Nat} {x y : Float} (h : Fits (min (n + 1) (2 ^ 53) * 2 ^ b))
    (hx : AtMost (min n (2 ^ 53) * 2 ^ b) x) (hy : Bounded b y) :
    finite? (x + y) = some (x + y) ∧ AtMost (min (n + 1) (2 ^ 53) * 2 ^ b) (x + y) := by
  have hsum := hx.add (Binary64.atMost_two_pow_iff.2 hy) h
  exact ⟨finite?_eq (hsum.isFinite h), hsum⟩

theorem total?_eq {b : Nat} {xs : List Float} (h : Fits (min xs.length (2 ^ 53) * 2 ^ b))
    (hxs : ∀ x ∈ xs, Bounded b x) :
    total? xs = some (total xs) ∧ AtMost (min xs.length (2 ^ 53) * 2 ^ b) (total xs) := by
  have hnone : AtMost (min 0 (2 ^ 53) * 2 ^ b) (-0.0) := Binary64.atMost_of_zero rfl
  rw [← Nat.zero_add xs.length]
  refine foldlM_some (fun n sum => AtMost (min n (2 ^ 53) * 2 ^ b) sum) hnone fun n sum hn hsum x hx => ?_
  exact finite?_add (h.mono (Nat.mul_le_mul_right _ (by omega))) hsum (hxs x hx)

/-- The mean of values of at most one is no larger. -/
theorem mean?_eq {xs : List Float} (hxs : ∀ x ∈ xs, Bounded 0 x) (hlength : 0 < xs.length) :
    quotient? (total xs) (Binary64.ofNat xs.length) = some (total xs / Binary64.ofNat xs.length) ∧
      Bounded 0 (total xs / Binary64.ofNat xs.length) := by
  have hfits := Binary64.fits_count xs.length (Nat.zero_le 970)
  obtain ⟨-, htotal⟩ := total?_eq hfits hxs
  have hmean := Binary64.bounded_div_ofNat hlength htotal (htotal.isFinite hfits)
  refine ⟨quotient?_eq (Binary64.isNaN_ofRatio _ _ _) (Binary64.magnitude_ofNat_pos hlength) ?_, hmean⟩
  exact hmean.isFinite (by omega)

/-! ## Scaled values -/

/-- What all values are divided by is finite, and no value is larger. -/
theorem scale_mem {xs : List Float} (hxs : ∀ x ∈ xs, x.isFinite = true) {scale : Float}
    (hscale : scale = (xs.map Float.abs).foldl Binary64.max 0) :
    scale.isFinite = true ∧ ∀ x ∈ xs, magnitude x ≤ magnitude scale := by
  have hfinite : ∀ y ∈ 0 :: xs.map Float.abs, y.isFinite = true := by
    refine List.forall_mem_cons.2 ⟨rfl, List.forall_mem_map.2 fun x hx => ?_⟩
    rw [Binary64.isFinite_iff, Binary64.magnitude_abs (Binary64.not_isNaN_of_isFinite (hxs x hx))]
    exact (Binary64.isFinite_iff x).1 (hxs x hx)
  have hle := Binary64.rank_le_foldl_max fun y hy => Binary64.not_isNaN_of_isFinite (hfinite y hy)
  rw [← hscale] at hle
  obtain ⟨hzero, hle⟩ := List.forall_mem_cons.1 hle
  refine ⟨hscale ▸ hfinite _ (Binary64.foldl_max_mem _ _), fun x hx => ?_⟩
  have habs := hle _ (List.mem_map_of_mem hx)
  rw [Binary64.rank_abs (Binary64.not_isNaN_of_isFinite (hxs x hx))] at habs
  rw [← Binary64.natAbs_rank scale]
  omega

theorem unitScaled?_eq {as : List Float} (has : ∀ x ∈ as, x.isFinite = true) :
    unitScaled? as = some (SkillBoard.unitScaled? as) ∧
      ∀ xs, SkillBoard.unitScaled? as = some xs → xs.length = as.length ∧ ∀ x ∈ xs, Bounded 0 x := by
  obtain ⟨scale, hscale⟩ : ∃ scale, scale = (as.map Float.abs).foldl Binary64.max 0 := ⟨_, rfl⟩
  obtain ⟨hfinite, hle⟩ := scale_mem has hscale
  have hnan := Binary64.not_isNaN_of_isFinite hfinite
  have hscaled : SkillBoard.unitScaled? as = if scale == 0 then none else some (as.map (· / scale)) := by
    rw [SkillBoard.unitScaled?, ← hscale]
    simp only [hfinite, Bool.not_true, Bool.or_false]
  rw [hscaled, unitScaled?, ← hscale, finite?_eq hfinite, Option.bind_eq_bind, Option.bind_some]
  split_ifs with hzero
  · exact ⟨rfl, fun xs h => by cases h⟩
  · have hpos : 0 < magnitude scale := Nat.pos_of_ne_zero (mt (Binary64.beq_zero_iff hnan).2 hzero)
    have hunits : 0 < units scale := binary64.units_strictMono hpos
    have hone : ∀ x ∈ as, Bounded 0 (x / scale) := fun x hx => by
      rw [Binary64.div_eq (has x hx) hfinite hpos]
      refine Binary64.bounded_ofRatio _ hunits ?_
      rw [pow_zero, one_mul]
      exact binary64.units_strictMono.monotone (hle x hx)
    have hquotients : as.mapM (fun x => quotient? x scale) = some (as.map (· / scale)) :=
      mapM_some fun x hx => quotient?_eq hnan hpos ((hone x hx).isFinite (by omega))
    rw [hquotients]
    refine ⟨rfl, fun xs h => ?_⟩
    obtain rfl := Option.some.inj h
    exact ⟨List.length_map _, List.forall_mem_map.2 hone⟩

/-! ## Moments -/

/-- The moments of `n` pairs of values of at most one. -/
structure Within (n : Nat) (m : Moments) : Prop where
  xy : AtMost (min n (2 ^ 53) * 2 ^ 2) m.xy
  xx : AtMost (min n (2 ^ 53) * 2 ^ 2) m.xx
  yy : AtMost (min n (2 ^ 53) * 2 ^ 2) m.yy

theorem bounded_moment {n : Nat} {x : Float} (h : AtMost (min n (2 ^ 53) * 2 ^ 2) x) : Bounded 55 x :=
  Binary64.atMost_two_pow_iff.1 (h.mono (Nat.mul_le_mul_right _ (min_le_right _ _)))

theorem bounded_sub {x mean : Float} (hx : Bounded 0 x) (hmean : Bounded 0 mean) :
    Bounded 1 (x - mean) := by
  rw [Binary64.sub_eq_add_neg]
  refine hx.add ?_ (by omega : 0 < 1 ∧ 0 < 1 ∧ 1 ≤ 1024)
  rwa [Bounded, Binary64.magnitude_neg]

theorem about?_eq {meanX meanY : Float} (hmeanX : Bounded 0 meanX) (hmeanY : Bounded 0 meanY)
    {pairs : List (Float × Float)} (hpairs : ∀ p ∈ pairs, Bounded 0 p.1 ∧ Bounded 0 p.2) :
    about? meanX meanY pairs = some (Moments.about meanX meanY pairs) ∧
      Within pairs.length (Moments.about meanX meanY pairs) := by
  have hnone : AtMost (min 0 (2 ^ 53) * 2 ^ 2) 0 := Binary64.atMost_of_zero rfl
  rw [← Nat.zero_add pairs.length]
  refine foldlM_some Within ⟨hnone, hnone, hnone⟩ fun n m _ hm p hp => ?_
  obtain ⟨x, y⟩ := p
  obtain ⟨hx, hy⟩ : Bounded 0 x ∧ Bounded 0 y := hpairs _ hp
  have hdx := bounded_sub hx hmeanX
  have hdy := bounded_sub hy hmeanY
  have hproduct {d e : Float} (hd : Bounded 1 d) (he : Bounded 1 e) : Bounded 2 (d * e) :=
    hd.mul he (by omega)
  have hfinite {d e : Float} (hd : Bounded 1 d) (he : Bounded 1 e) : finite? (d * e) = some (d * e) :=
    finite?_eq ((hproduct hd he).isFinite (by omega))
  have hfits : Fits (min (n + 1) (2 ^ 53) * 2 ^ 2) := Binary64.fits_count (n + 1) (by omega)
  obtain ⟨hxy, hxy'⟩ := finite?_add hfits hm.xy (hproduct hdx hdy)
  obtain ⟨hxx, hxx'⟩ := finite?_add hfits hm.xx (hproduct hdx hdx)
  obtain ⟨hyy, hyy'⟩ := finite?_add hfits hm.yy (hproduct hdy hdy)
  refine ⟨?_, ⟨hxy', hxx', hyy'⟩⟩
  dsimp only
  rw [finite?_eq (hdx.isFinite (by omega)), Option.bind_eq_bind, Option.bind_some,
    finite?_eq (hdy.isFinite (by omega)), Option.bind_some, hfinite hdx hdy, Option.bind_some, hxy,
    Option.bind_some, hfinite hdx hdx, Option.bind_some, hxx, Option.bind_some, hfinite hdy hdy,
    Option.bind_some, hyy]
  rfl

/-! ## The quotient of the moments -/

/-- Below this, moments of so many pairs count as none. -/
def floor (n : Nat) : Float := Binary64.ofNat n * epsilon * epsilon

theorem epsilon_mem : Bounded 0 epsilon ∧ isNegative epsilon = false := by decide +kernel

theorem isFinite_mul_epsilon {x : Float} (hx : x.isFinite = true) : (x * epsilon).isFinite = true := by
  have hle := Binary64.magnitude_mul_le hx epsilon_mem.1
  rw [Binary64.isFinite_iff] at hx ⊢
  exact hle.trans_lt hx

theorem isNegative_mul_epsilon {x : Float} (hx : x.isFinite = true) :
    isNegative (x * epsilon) = isNegative x := by
  rw [Binary64.isNegative_mul hx (epsilon_mem.1.isFinite (Nat.zero_le _)), epsilon_mem.2, Bool.xor_false]

theorem magnitude_mul_epsilon_mono {x y : Float} (hx : x.isFinite = true) (hy : y.isFinite = true)
    (h : magnitude x ≤ magnitude y) : magnitude (x * epsilon) ≤ magnitude (y * epsilon) :=
  have hfinite := epsilon_mem.1.isFinite (Nat.zero_le _)
  Binary64.magnitude_mul_mono hx hy hfinite hfinite h le_rfl

theorem floor_mem {n : Nat} (hn : (Binary64.ofNat n).isFinite = true) :
    (floor n).isFinite = true ∧ rank (floor n) = magnitude (floor n) := by
  have hstep := isFinite_mul_epsilon hn
  refine ⟨isFinite_mul_epsilon hstep, Binary64.rank_of_not_isNegative ?_⟩
  rw [floor, isNegative_mul_epsilon hstep, isNegative_mul_epsilon hn, Binary64.isNegative_ofNat]

theorem floor_two : (floor 2).isFinite = true ∧ rank (floor 2) = magnitude (floor 2) :=
  floor_mem (Binary64.isFinite_ofNat (by omega))

theorem floor_two_pos : 0 < magnitude (floor 2) ∧ 0 < magnitude (floor 2 * floor 2) := by decide +kernel

/-- For two values the floor is least. It is infinite if their number is. -/
theorem floor_mono {n : Nat} (hn : 2 ≤ n) :
    rank (floor 2) ≤ rank (floor n) ∧ (floor n).isNaN = false := by
  rw [floor_two.2]
  by_cases h : (Binary64.ofNat n).isFinite = true
  · obtain ⟨hfinite, hrank⟩ := floor_mem h
    have htwo : (Binary64.ofNat 2).isFinite = true := Binary64.isFinite_ofNat (by omega)
    have hle : magnitude (floor 2) ≤ magnitude (floor n) :=
      magnitude_mul_epsilon_mono (isFinite_mul_epsilon htwo) (isFinite_mul_epsilon h)
        (magnitude_mul_epsilon_mono htwo h (Binary64.magnitude_ofNat_mono hn))
    rw [hrank]
    exact ⟨Int.ofNat_le.2 hle, Binary64.not_isNaN_of_isFinite hfinite⟩
  · have hinfinite : floor n = Binary64.ofMagnitude false binary64.infinity := by
      rw [floor, Binary64.ofNat_of_not_isFinite h]
      decide +kernel
    have hrank : rank (Binary64.ofMagnitude false binary64.infinity) = binary64.infinity := rfl
    rw [hinfinite, hrank]
    exact ⟨Int.ofNat_le.2 ((Binary64.isFinite_iff _).1 floor_two.1).le, rfl⟩

/-- What is above the floor is positive, and not too close to zero. -/
theorem above_floor {n : Nat} (hn : 2 ≤ n) {x : Float} (hx : x.isFinite = true) (h : ¬ x ≤ floor n) :
    isNegative x = false ∧ magnitude (floor 2) ≤ magnitude x := by
  obtain ⟨hle, hnan⟩ := floor_mono hn
  have hpos := floor_two_pos.1
  rw [floor_two.2] at hle
  rw [Binary64.le_iff_rank_le (Binary64.not_isNaN_of_isFinite hx) hnan] at h
  have hsign : isNegative x = false := by
    rw [Bool.eq_false_iff]
    intro hneg
    rw [rank, Binary64.withSign, if_pos hneg] at h
    omega
  rw [Binary64.rank_of_not_isNegative hsign] at h
  exact ⟨hsign, by omega⟩

/-- The product of two moments above the floor is not rounded to zero, and its root is far from zero. -/
theorem root_mem {n : Nat} (hn : 2 ≤ n) {x y : Float} (hx : Bounded 55 x) (hy : Bounded 55 y)
    (hxfloor : ¬ x ≤ floor n) (hyfloor : ¬ y ≤ floor n) :
    (x * y).isFinite = true ∧ (x * y).sqrt.isFinite = true ∧
      binary64.one ≤ 2 ^ 537 * units (x * y).sqrt := by
  have hxfinite := hx.isFinite (by omega)
  have hyfinite := hy.isFinite (by omega)
  obtain ⟨hxsign, hxle⟩ := above_floor hn hxfinite hxfloor
  obtain ⟨hysign, hyle⟩ := above_floor hn hyfinite hyfloor
  have hbound : Bounded 110 (x * y) := hx.mul hy (by omega)
  have hfinite := hbound.isFinite (by omega)
  have hsign : isNegative (x * y) = false := by
    rw [Binary64.isNegative_mul hxfinite hyfinite, hxsign, hysign]
    rfl
  have hpos : 0 < magnitude (x * y) := by
    have hmono := Binary64.magnitude_mul_mono floor_two.1 hxfinite floor_two.1 hyfinite hxle hyle
    exact floor_two_pos.2.trans_le hmono
  refine ⟨hfinite, ?_, Binary64.le_units_sqrt hfinite hsign hpos⟩
  have hroot := Binary64.bounded_sqrt hfinite fun h => absurd (hsign.symm.trans h) Bool.false_ne_true
  exact hroot.isFinite (by omega)

theorem ratio?_eq {n : Nat} (hn : 2 ≤ n) {m : Moments} {k : Nat} (hm : Within k m) :
    ratio? m n = some (m.correlation n) := by
  unfold ratio? Moments.correlation
  dsimp only
  rw [← floor]
  by_cases h : (decide (m.xx ≤ floor n) || decide (m.yy ≤ floor n)) = true
  · rw [if_pos h, if_pos h]
  rw [if_neg h, if_neg h]
  rw [Bool.or_eq_true, decide_eq_true_eq, decide_eq_true_eq, not_or] at h
  obtain ⟨hproduct, hroot, hunits⟩ := root_mem hn (bounded_moment hm.xx) (bounded_moment hm.yy) h.1 h.2
  have hpos : 0 < magnitude (m.xx * m.yy).sqrt := Binary64.magnitude_pos_of_le (Binary64.one_pos _) hunits
  have hbound : 2 ^ 55 * binary64.one ≤ 2 ^ (55 + 537) * units (m.xx * m.yy).sqrt := by
    rw [pow_add, mul_assoc]
    exact Nat.mul_le_mul_left _ hunits
  have hquotient : (m.xy / (m.xx * m.yy).sqrt).isFinite = true :=
    (Binary64.bounded_div (bounded_moment hm.xy) (by omega) hroot hbound).isFinite (by omega)
  rw [finite?_eq hproduct, Option.bind_eq_bind, Option.bind_some, finite?_eq hroot,
    Option.bind_some, quotient?_eq (Binary64.not_isNaN_of_isFinite hroot) hpos hquotient, if_pos hquotient]
  rfl

theorem pearson?_eq {as bs : List Float} (hlength : as.length = bs.length)
    (has : ∀ x ∈ as, x.isFinite = true) (hbs : ∀ x ∈ bs, x.isFinite = true) :
    pearson? as bs = some (pearson as bs) := by
  rw [pearson?, pearson_eq]
  split_ifs with hfew
  · rfl
  have hn : 2 ≤ as.length := not_lt.1 hfew
  obtain ⟨hxs, hxs'⟩ := unitScaled?_eq has
  obtain ⟨hys, hys'⟩ := unitScaled?_eq hbs
  rw [hxs, hys]
  cases hx : SkillBoard.unitScaled? as with
  | none => rfl
  | some xs =>
    cases hy : SkillBoard.unitScaled? bs with
    | none => rfl
    | some ys =>
      obtain ⟨hxlength, hxone⟩ := hxs' xs hx
      obtain ⟨hylength, hyone⟩ := hys' ys hy
      obtain ⟨hxtotal, -⟩ := total?_eq (Binary64.fits_count _ (Nat.zero_le _)) hxone
      obtain ⟨hytotal, -⟩ := total?_eq (Binary64.fits_count _ (Nat.zero_le _)) hyone
      obtain ⟨hxmean, hxbound⟩ := mean?_eq hxone (by omega)
      obtain ⟨hymean, hybound⟩ := mean?_eq hyone (by omega)
      rw [hxlength] at hxmean hxbound
      rw [hylength, ← hlength] at hymean hybound
      have hpairs : ∀ p ∈ xs.zip ys, Bounded 0 p.1 ∧ Bounded 0 p.2 := fun p hp =>
        ⟨hxone _ (List.of_mem_zip hp).1, hyone _ (List.of_mem_zip hp).2⟩
      obtain ⟨hmoments, hwithin⟩ := about?_eq hxbound hybound hpairs
      simp only [Option.bind_eq_bind, Option.bind_some]
      rw [hxtotal, Option.bind_some, hxmean, Option.bind_some, hytotal, Option.bind_some, hymean,
        Option.bind_some, hmoments, Option.bind_some]
      exact ratio?_eq hn hwithin

theorem isFinite_floor {n : Nat} (hn : n < 2 ^ 64) :
    (Binary64.ofNat n).isFinite = true ∧ (floor n).isFinite = true := by
  have hbound : Bounded 64 (Binary64.ofNat n) := Binary64.bounded_ofRatio _ Nat.one_pos (by omega)
  have hfinite := hbound.isFinite (by omega)
  exact ⟨hfinite, (floor_mem hfinite).1⟩

end Checked

/-- **A correlation of finite values comes to its end with finite results on the way**: all scaled values, sums,
means, deviations, products, moments and the quotient are finite, nothing is divided by zero, and the quotient
needs nothing to fall back on. The number of students and the floor are finite too, but for numbers that no
memory holds. -/
theorem correlation_inRange (students : List Student) (a b : Metric)
    (hfinite : ∀ s ∈ students, ∀ m, (s.metric m).isFinite = true) :
    Checked.correlation? students a b = some (correlation students a b) ∧
      (students.length < 2 ^ 64 → (Binary64.ofNat students.length).isFinite = true ∧
        (Checked.floor students.length).isFinite = true) := by
  refine ⟨Checked.pearson?_eq (by rw [List.length_map, List.length_map]) ?_ ?_, Checked.isFinite_floor⟩
  · exact List.forall_mem_map.2 fun s hs => hfinite s hs a
  · exact List.forall_mem_map.2 fun s hs => hfinite s hs b

/-- Two students with the largest attentions there are, of whom one has the smallest score. -/
def extremes : List Student :=
  [⟨1, "Ada", 5, 50, 1.7976931348623157e308, 50, 50, 5e-324, 30, 0⟩,
    ⟨2, "Ben", 5, 50, -1.7976931348623157e308, 50, 50, 0, 30, 0⟩]

theorem correlation_inRange_extremes : (∀ s ∈ extremes, ∀ m, (s.metric m).isFinite = true) ∧
    Checked.correlation? extremes .attention .assessmentScore = some 1 := by
  have hfinite : ∀ s ∈ extremes, ∀ m, (s.metric m).isFinite = true := by
    intro s hs m
    fin_cases hs <;> cases m <;> decide +kernel
  have hone : correlation extremes .attention .assessmentScore = 1 := by decide +kernel
  obtain ⟨hchecked, -⟩ := correlation_inRange extremes .attention .assessmentScore hfinite
  exact ⟨hfinite, hone ▸ hchecked⟩

end SkillBoard
