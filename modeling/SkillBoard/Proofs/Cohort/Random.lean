import SkillBoard.Cohort.Random
import SkillBoard.Proofs.Binary.Integers
import SkillBoard.Proofs.Binary.Ranges

/-!
# Random numbers keep to their ranges

Whatever the state of the generator, a fraction is at least zero and below one, a number below `n` is
below `n`, and a normal draw is finite (`satisfiesM_gauss`) for all functions of analysis that are
`Lawful`.
-/

namespace SkillBoard

/-- What normal draws need of the functions of analysis. The logarithm of the smallest double is above the
bound; without one its double could be infinite, and an infinite root times a zero is not a number. -/
structure Analysis.Lawful (f : Analysis) : Prop where
  ln_nonpos : ∀ u : Float, 0 < u → u ≤ 1 → f.ln u ≤ 0
  ln_ge : ∀ u : Float, 0 < u → u ≤ 1 → -746 ≤ f.ln u
  cos_mem : ∀ x : Float, x.isFinite = true → -1 ≤ f.cos x ∧ f.cos x ≤ 1

/-! ## Series -/

namespace Analysis

open Binary64

/-- The denominator of the fixed-point numbers that the series are summed in. -/
def scale : Nat := 1 <<< 100

/-- The inverse hyperbolic tangent of a small `t`, in fixed point. -/
def artanh (t : Nat) : Nat :=
  t * (List.range 50).foldr (fun j sum => scale / (2 * j + 1) + t * t / scale * sum / scale) 0 / scale

/-- Minus the logarithm of `k` smallest steps, up to one, in fixed point: of the mantissa, which is from
one half up, and as many times that of two as the exponent says. -/
def negLn (k : Nat) : Nat :=
  let top := 2 <<< k.log2
  let ln2 := 2 * artanh (scale / 3)
  binary64.stepExponent * ln2 + 2 * artanh ((top - k) * scale / (top + k)) - (k.log2 + 1) * ln2

/-- The cosine in fixed point. -/
def cosine (x : Nat) : Int :=
  (List.range 40).foldr
    (fun j sum => scale - x * x / scale * sum / (scale * ((2 * j + 1) * (2 * j + 2)) : Nat)) scale

/-- A full turn in fixed point. -/
def turn : Nat := 7964883625991394727376702227904

/-- Logarithm and cosine by their series, with a hundred binary places. -/
def series : Analysis where
  ln u := ofRatio true (min (negLn (units u)) (746 * scale)) scale
  cos x :=
    let c := cosine (units x * scale / binary64.one % turn)
    ofRatio (c < 0) (min c.natAbs scale) scale

theorem scale_pos : 0 < scale := by decide

theorem ofRatio_mem (negative : Bool) {c n d : Nat} (hd : 0 < d) (h : n ≤ c * d) :
    ofRatio true c 1 ≤ ofRatio negative n d ∧ ofRatio negative n d ≤ ofRatio false c 1 := by
  have hle : binary64.nearest n d ≤ binary64.nearest c 1 :=
    BinaryFormat.nearest_mono hd Nat.one_pos (by omega)
  rw [le_iff_rank_le (isNaN_ofRatio _ _ _) (isNaN_ofRatio _ _ _),
    le_iff_rank_le (isNaN_ofRatio _ _ _) (isNaN_ofRatio _ _ _), rank_ofRatio, rank_ofRatio, rank_ofRatio]
  cases negative <;> simp only [withSign, if_true, Bool.false_eq_true, if_false] <;> omega

theorem ofRatio_true_nonpos (n d : Nat) : ofRatio true n d ≤ 0 := by
  rw [le_iff_rank_le (isNaN_ofRatio _ _ _) (by decide), rank_zero, rank_ofRatio, withSign, if_pos rfl]
  exact neg_nonpos.2 (Int.natCast_nonneg _)

/-- There are functions of analysis that are lawful. -/
theorem series_lawful : series.Lawful where
  ln_nonpos _ _ _ := ofRatio_true_nonpos _ _
  ln_ge _ _ _ := by
    have hbound : (-746 : Float) = ofRatio true 746 1 := by decide +kernel
    rw [hbound]
    exact (ofRatio_mem _ scale_pos (Nat.min_le_right _ _)).1
  cos_mem _ _ := by
    have hends : (-1 : Float) = ofRatio true 1 1 ∧ (1 : Float) = ofRatio false 1 1 := by decide +kernel
    rw [hends.1, hends.2]
    exact ofRatio_mem _ scale_pos (by rw [Nat.one_mul]; exact Nat.min_le_right _ _)

end Analysis

/-! ## Draws -/

namespace Random

open Binary64

theorem toNat_shiftRight_lt (x : UInt64) : (x >>> 11).toNat < 2 ^ 53 := by
  have hx := x.toNat_lt
  have h : (x >>> 11).toNat = x.toNat / 2 ^ 11 := by
    simp [Nat.shiftRight_eq_div_pow]
  omega

theorem ofNat_div_two_pow {n : Nat} (hn : n < 2 ^ 53) :
    ofNat n / ofNat (1 <<< 53) = ofRatio false n (2 ^ 53) := by
  have hunits : units (ofNat (1 <<< 53)) = 2 ^ 53 * binary64.one := by decide +kernel
  rw [div_eq (isFinite_ofNat hn) (by decide +kernel) (by decide +kernel), units_ofNat hn, hunits,
    isNegative_ofNat, isNegative_ofNat]
  apply ofRatio_congr
  · exact Nat.mul_pos (by norm_num) (one_pos _)
  · norm_num
  · ring

theorem nearest_div_two_pow_lt {n : Nat} (hn : n < 2 ^ 53) :
    binary64.nearest n (2 ^ 53) < binary64.nearest 1 1 := by
  have hone : binary64.units (binary64.nearest 1 1) = 2 ^ 53 * 2 ^ 1021 := by decide +kernel
  obtain ⟨k, hk, hunits⟩ := exists_units_eq_mul_pow hn (s := 1021) (by norm_num)
  rw [binary64.nearest_units (by norm_num) hk.le, ← binary64.units_strictMono.lt_iff_lt, hone, hunits]
  · exact Nat.mul_lt_mul_of_pos_right hn (by norm_num)
  · have hstep : binary64.stepExponent = 1021 + 53 := rfl
    rw [hunits, one_eq, hstep, pow_add, mul_assoc]

/-- A fraction is at least zero and below one. -/
theorem satisfiesM_fraction : SatisfiesM (fun u : Float => 0 ≤ u ∧ u < 1) fraction := by
  unfold fraction
  apply SatisfiesM.bind SatisfiesM.trivial
  intro x _
  apply SatisfiesM.pure
  have hlt := toNat_shiftRight_lt x
  generalize (x >>> 11).toNat = n at hlt
  have hone : rank 1 = binary64.nearest 1 1 := by decide +kernel
  rw [ofNat_div_two_pow hlt]
  constructor
  · rw [le_iff_rank_le (by decide) (isNaN_ofRatio _ _ _), rank_zero, rank_ofRatio]
    exact Int.natCast_nonneg _
  · rw [lt_iff_rank_lt (isNaN_ofRatio _ _ _) (by decide), hone, rank_ofRatio]
    exact Int.ofNat_lt.2 (nearest_div_two_pow_lt hlt)

/-- The logarithm is taken of values above zero, up to one. -/
theorem max_fraction {u : Float} (h : u < 1) : 0 < Binary64.max u 1e-15 ∧ Binary64.max u 1e-15 ≤ 1 := by
  have hu := (not_isNaN_of_lt h).1
  have htiny : (0 : Float) < 1e-15 := by decide
  have hmax : Binary64.max u 1e-15 = if u < 1e-15 then 1e-15 else u := by
    simp only [Binary64.max, hu, Bool.or_false, decide_eq_true_eq]
  rw [hmax]
  split_ifs with hlt
  · exact ⟨htiny, by decide⟩
  · have hle := rank_le_of_le (le_of_not_lt hu (by decide) hlt)
    rw [lt_iff_rank_lt (by decide) (by decide)] at htiny
    rw [lt_iff_rank_lt (by decide) hu]
    exact ⟨htiny.trans_le hle, le_of_lt h⟩

section

variable {f : Analysis} (hf : f.Lawful)

include hf

theorem bounded_ln {u : Float} (hpos : 0 < u) (hle : u ≤ 1) : Bounded 10 (f.ln u) := by
  have hlo : Bounded 10 (-746 : Float) := by decide +kernel
  have hhi : Bounded 10 (0 : Float) := by decide
  exact hlo.of_mem hhi (hf.ln_ge u hpos hle) (hf.ln_nonpos u hpos hle)

/-- The root of a normal draw is of a value that is finite and not negative. -/
theorem bounded_root {u : Float} (hpos : 0 < u) (hle : u ≤ 1) : Bounded 512 (-2 * f.ln u).sqrt := by
  have hnonpos := hf.ln_nonpos u hpos hle
  have hbounded := bounded_ln hf hpos hle
  have htwo : Bounded 1 (-2 : Float) := by decide
  have hdouble := (htwo.mul (c := 11) hbounded (by decide)).isFinite (by norm_num)
  generalize f.ln u = l at *
  have hfinite := hbounded.isFinite (by norm_num)
  apply bounded_sqrt hdouble
  have hunits : units (-2) = units 2 := by decide
  have hsign : isNegative (-2) = true := by decide
  rw [mul_eq (by decide) hfinite, hunits, hsign]
  intro hneg
  have hrank := rank_le_of_le hnonpos
  rw [isNegative_ofRatio] at hneg
  have hl : isNegative l = false := by simpa using hneg
  have hzero : magnitude l = 0 := by
    rw [rank_zero, rank, hl, withSign, if_neg (by simp)] at hrank
    omega
  have hunits : units l = 0 := by rw [units, hzero]; rfl
  rw [magnitude_ofRatio, hunits, mul_zero, binary64.nearest_eq_zero]
  rw [zero_mul, mul_zero]
  exact Nat.mul_pos (one_pos _) (one_pos _)

/-- A normal draw is finite. -/
theorem satisfiesM_gauss {mean deviation : Float} (hmean : Bounded 516 mean)
    (hdeviation : Bounded 4 deviation) : SatisfiesM (Bounded 517) (gauss f mean deviation) := by
  unfold gauss
  apply SatisfiesM.bind satisfiesM_fraction
  intro u hu
  apply SatisfiesM.bind satisfiesM_fraction
  intro v hv
  apply SatisfiesM.pure
  obtain ⟨hpos, hle⟩ := max_fraction hu.2
  have hroot := bounded_root hf hpos hle
  have hzero : Bounded 0 (0 : Float) := by decide
  have hone : Bounded 0 (1 : Float) ∧ Bounded 0 (-1 : Float) := by decide
  have hv : Bounded 0 v := hzero.of_mem hone.1 hv.1 (le_of_lt hv.2)
  have hturn : Bounded 3 (2 * 3.141592653589793) := by decide
  have hangle : Bounded 3 (2 * 3.141592653589793 * v) := hturn.mul hv (by decide)
  obtain ⟨hlo, hhi⟩ := hf.cos_mem _ (hangle.isFinite (by norm_num))
  have hcos : Bounded 0 (f.cos (2 * 3.141592653589793 * v)) := hone.2.of_mem hone.1 hlo hhi
  have hnormal := hroot.mul (c := 512) hcos (by decide)
  have hnoise := hdeviation.mul (c := 516) hnormal (by decide)
  exact hmean.add hnoise (by decide)

end

theorem satisfiesM_below {n : Nat} (hn : 0 < n) : SatisfiesM (· < n) (below n) := by
  unfold below
  apply SatisfiesM.bind SatisfiesM.trivial
  intro u _
  apply SatisfiesM.pure
  exact Nat.mod_lt _ hn

end Random

end SkillBoard
