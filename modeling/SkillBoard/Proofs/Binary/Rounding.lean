import SkillBoard.Proofs.Binary.Nearest

/-!
# Products and quotients are rounded once

The logical model shifts a mantissa to the place where the format cuts it off, keeping two bits of what
is cut off. Here this is seen to be the nearest magnitude.

* `extended`: a quotient as the model holds it, cut to a mantissa and two bits; shifting it is dividing by
  two (`shiftRight_extended`), and rounding it is `roundHalfEven`.
* `ofModel_roundWithAccuracy`: the model rounds to the nearest double.
* `mul_eq`, `div_eq`: so products and quotients of finite doubles are the doubles nearest to the exact ones.
-/

namespace SkillBoard.Binary64

open Float.Model (Format UnpackedFloat totalExponent)
open Float.Model.UnpackedFloat (Sign Accuracy ExtendedMantissa accuracyOfFraction shiftToTargetExponent
  shiftToExponent roundWithAccuracy)

/-! ## What is cut off -/

/-- The quotient of two numbers, cut to an integer, and what is known of the rest. -/
def extended (n d : Nat) : ExtendedMantissa :=
  .ofMantissaAndAccuracy (n / d) (accuracyOfFraction (n % d) d)

theorem extended_eq {n d : Nat} (hd : 0 < d) : extended n d =
    ⟨n / d, decide (d ≤ 2 * (n % d)), decide (n % d ≠ 0 ∧ 2 * (n % d) ≠ d)⟩ := by
  unfold extended accuracyOfFraction
  by_cases h0 : n % d = 0
  · rw [if_pos h0, h0]
    simp [ExtendedMantissa.ofMantissaAndAccuracy, hd.ne']
  · rw [if_neg h0]
    rcases Nat.lt_trichotomy (2 * (n % d)) d with h | h | h
    · simp [ExtendedMantissa.ofMantissaAndAccuracy, Nat.compare_eq_lt.2 h, h0, h.not_ge, h.ne]
    · simp [ExtendedMantissa.ofMantissaAndAccuracy, h0, h]
    · simp [ExtendedMantissa.ofMantissaAndAccuracy, Nat.compare_eq_gt.2 h, h0, h.le, h.ne']

theorem shiftRightOne_extended {n d : Nat} (hd : 0 < d) :
    (extended n d).shiftRightOne = extended n (d * 2) := by
  have hmod : n % (d * 2) = n % d + d * (n / d % 2) := Nat.mod_mul
  have hlt := Nat.mod_lt n hd
  rw [extended_eq hd, extended_eq (by omega), ExtendedMantissa.shiftRightOne, hmod, Nat.div_div_eq_div_mul]
  congr 1
  · rcases Nat.mod_two_eq_zero_or_one (n / d) with h | h
    · rw [h, mul_zero, add_zero, decide_eq_false (by omega)]
      rfl
    · rw [h, mul_one, decide_eq_true (by omega)]
      rfl
  · rw [← Bool.decide_or, decide_eq_decide]
    rcases Nat.mod_two_eq_zero_or_one (n / d) with h | h
    · rw [h, mul_zero, add_zero]
      omega
    · rw [h, mul_one]
      omega

theorem shiftRight_extended {n d : Nat} (hd : 0 < d) (s : Nat) :
    extended n d >>> s = extended n (d * 2 ^ s) := by
  show s.repeat ExtendedMantissa.shiftRightOne (extended n d) = _
  induction s with
  | zero => rw [pow_zero, mul_one]; rfl
  | succ s ih =>
    rw [Nat.repeat, ih, shiftRightOne_extended (by positivity), pow_succ, mul_assoc]

theorem roundedMantissa_extended {n d : Nat} (hd : 0 < d) :
    (extended n d).roundedMantissa = roundHalfEven n d := by
  unfold extended accuracyOfFraction roundHalfEven
  by_cases h0 : n % d = 0
  · rw [if_pos h0, h0, mul_zero, Nat.compare_eq_lt.2 hd]
    rfl
  · rw [if_neg h0]
    rcases Nat.lt_trichotomy (2 * (n % d)) d with h | h | h
    · rw [Nat.compare_eq_lt.2 h]
      rfl
    · rw [Nat.compare_eq_eq.2 h]
      rfl
    · rw [Nat.compare_eq_gt.2 h]
      rfl

theorem mantissa_extended (n d : Nat) : (extended n d).mantissa = n / d := by
  unfold extended
  cases accuracyOfFraction (n % d) d with
  | exact => rfl
  | inexact o => cases o <;> rfl

/-! ## Where it is cut off -/

/-- The exponent at which the format cuts off a number with integer part `q`, counted at exponent `e`. -/
def cutoff (q : Nat) (e : Int) : Int := Max.max (q.log2 + 1 + e - 53) (-1074)

theorem shiftToTargetExponent_eq {n d : Nat} (hd : 0 < d) {e : Int} (he : e ≤ cutoff (n / d) e) :
    shiftToTargetExponent .binary64 (n / d) e (accuracyOfFraction (n % d) d) =
      (extended n (d * 2 ^ (cutoff (n / d) e - e).toNat), cutoff (n / d) e) := by
  have hexponent : e + (cutoff (n / d) e - e).toNat = cutoff (n / d) e := by omega
  rw [← shiftRight_extended hd]
  show (extended n d >>> (cutoff (n / d) e - e).toNat, e + (cutoff (n / d) e - e).toNat) = _
  rw [hexponent]

theorem le_roundHalfEven (n d : Nat) : n / d ≤ roundHalfEven n d ∧ roundHalfEven n d ≤ n / d + 1 := by
  unfold roundHalfEven
  split <;> omega

/-- A mantissa rounded at the cut-off has at most one bit more than the format, and above the least
exponent no fewer. -/
theorem roundHalfEven_bounds {n d : Nat} {e : Int} (he : e ≤ cutoff (n / d) e) :
    roundHalfEven n (d * 2 ^ (cutoff (n / d) e - e).toNat) ≤ 2 ^ 53 ∧
      (-1074 < cutoff (n / d) e →
        2 ^ 52 ≤ roundHalfEven n (d * 2 ^ (cutoff (n / d) e - e).toNat)) := by
  obtain ⟨hlo, hhi⟩ := le_roundHalfEven n (d * 2 ^ (cutoff (n / d) e - e).toNat)
  rw [← Nat.div_div_eq_div_mul] at hlo hhi
  generalize n / d = q at *
  generalize hs : (cutoff q e - e).toNat = s at *
  rw [cutoff] at *
  constructor
  · have hq : q < 2 ^ (53 + s) :=
      Nat.lt_log2_self.trans_le (Nat.pow_le_pow_right (by norm_num) (by omega))
    have hdiv : q / 2 ^ s < 2 ^ 53 := by
      rw [Nat.div_lt_iff_lt_mul (by positivity), ← pow_add]
      exact hq
    omega
  · intro hcutoff
    have hlog : q.log2 = 52 + s := by omega
    have hq : 2 ^ (52 + s) ≤ q := by
      rw [← hlog]
      exact Nat.log2_self_le (by rintro rfl; rw [Nat.log2_zero] at hlog; omega)
    have hdiv : 2 ^ 52 ≤ q / 2 ^ s := by
      rw [Nat.le_div_iff_mul_le (by positivity), ← pow_add]
      exact hq
    omega

/-! ## The rounded value -/

/-- A rounded value as the model holds it. Its magnitude may still be past all finite ones. -/
inductive Rounded (negative : Bool) (k : Nat) : UnpackedFloat → Prop
  | zero (hk : k = 0) : Rounded negative k (.zero (modelSign negative))
  | finite (m : Nat) (e : Int) (hm : 0 < m) (hmk : (k : Int) = (e + 1074) * 2 ^ 52 + m)
      (hlt : m < 2 ^ 53) (hle : -1074 ≤ e) (hnormal : -1074 < e → 2 ^ 52 ≤ m) :
      Rounded negative k (.finite (modelSign negative) m e hm)

theorem rounded_toModel {x : Float} (hx : x.isFinite = true) :
    Rounded (isNegative x) (magnitude x) x.toModel.unpack := by
  have h := shape x
  rw [isFinite_iff] at hx
  generalize x.toModel.unpack = u at h
  cases h with
  | zero hk => exact .zero hk
  | finite m e hm _ hmk hlt hle hnormal => exact .finite m e hm hmk hlt hle hnormal
  | infinite hk => omega
  | notANumber hk => omega

theorem toNat_pack_of_rounded {negative : Bool} {k : Nat} {u : UnpackedFloat}
    (h : Rounded negative k u) : (UnpackedFloat.pack .binary64 u).toNat =
      negative.toNat * 2 ^ 63 + min k binary64.infinity := by
  have hbias : (Format.binary64.exponentBias : Int) = 1023 := rfl
  have hwidth : Format.binary64.mantissaBits = 53 := rfl
  rw [infinity_eq]
  cases h with
  | zero hk =>
    rw [UnpackedFloat.pack, UnpackedFloat.packedZero, toNat_packComponents, toNat_modelSign, hk]
    simp
  | finite m e hm hmk hlt hle hnormal =>
    simp only [UnpackedFloat.pack, hbias, hwidth]
    split_ifs with hlarge hlead
    · rw [UnpackedFloat.packedInfinity, toNat_packComponents, toNat_modelSign]
      simp
      omega
    · have hlead : 2 ^ 52 ≤ m := (Nat.le_log2 hm.ne').1 (by omega)
      rw [toNat_packComponents, toNat_modelSign, BitVec.toNat_ofNat, BitVec.toNat_ofNat]
      omega
    · have hlog : m.log2 < 53 := (Nat.log2_lt hm.ne').2 hlt
      have hlow : m < 2 ^ 52 := (Nat.log2_lt hm.ne').1 (by omega)
      rw [toNat_packComponents, toNat_modelSign, BitVec.toNat_ofNat, BitVec.toNat_ofNat]
      omega

theorem ofModel_pack {negative : Bool} {k : Nat} {u : UnpackedFloat} (h : Rounded negative k u) :
    Float.ofModel (Float.Model.pack u) = ofMagnitude negative (min k binary64.infinity) := by
  apply eq_of_toBits
  rw [← UInt64.toNat_inj, toNat_toBits_ofMagnitude negative (Nat.min_le_right _ _)]
  exact toNat_pack_of_rounded h

/-- A rounded mantissa that has one bit too many is shifted once more, and nothing is lost by it. -/
theorem rounded_carried (negative : Bool) {r : Nat} {t : Int} (hr : r ≤ 2 ^ 53) (ht : -1074 ≤ t)
    (hnormal : -1074 < t → 2 ^ 52 ≤ r) :
    Rounded negative ((t + 1074).toNat * 2 ^ 52 + r)
      (if h : (shiftToTargetExponent .binary64 r t .exact).1.mantissa = 0 then .zero (modelSign negative)
      else .finite (modelSign negative) (shiftToTargetExponent .binary64 r t .exact).1.mantissa
        (shiftToTargetExponent .binary64 r t .exact).2 (Nat.pos_of_ne_zero h)) := by
  have hcutoff : cutoff r t = if r = 2 ^ 53 then t + 1 else t := by
    rw [cutoff]
    split_ifs with hr'
    · rw [hr', Nat.log2_two_pow]
      omega
    · have hlog : r.log2 ≤ 52 := by
        rcases Nat.eq_zero_or_pos r with rfl | hpos
        · rw [Nat.log2_zero]
          omega
        · exact Nat.lt_succ_iff.1 ((Nat.log2_lt hpos.ne').2 (by omega))
      have hlead : -1074 < t → 52 ≤ r.log2 := fun h =>
        (Nat.le_log2 (by have := hnormal h; omega)).2 (hnormal h)
      omega
  have hshift : shiftToTargetExponent .binary64 r t .exact =
      (extended r (2 ^ (cutoff r t - t).toNat), cutoff r t) := by
    have h := shiftToTargetExponent_eq (n := r) (e := t) Nat.one_pos (by
      rw [Nat.div_one, hcutoff]
      split <;> omega)
    rwa [Nat.div_one, Nat.mod_one, one_mul] at h
  simp only [hshift, mantissa_extended, hcutoff]
  by_cases hcarry : r = 2 ^ 53
  · have hone : (t + 1 - t).toNat = 1 := by omega
    simp only [hcarry, if_true, hone, pow_one]
    rw [dif_neg (by norm_num)]
    exact .finite _ _ _ (by omega) (by norm_num) (by omega) (by norm_num)
  · have hzero : (t - t).toNat = 0 := by omega
    simp only [hcarry, if_false, hzero, pow_zero, Nat.div_one]
    split_ifs with h0
    · exact .zero (by omega)
    · exact .finite _ _ _ (by omega) (by omega) ht hnormal

theorem rounded_roundWithAccuracy (negative : Bool) {n d : Nat} (hd : 0 < d) {e : Int}
    (he : e ≤ cutoff (n / d) e) :
    Rounded negative ((cutoff (n / d) e + 1074).toNat * 2 ^ 52 +
        roundHalfEven n (d * 2 ^ (cutoff (n / d) e - e).toNat))
      (roundWithAccuracy .binary64 (modelSign negative) (n / d) e (accuracyOfFraction (n % d) d)) := by
  obtain ⟨hr, hnormal⟩ := roundHalfEven_bounds he
  have hle : -1074 ≤ cutoff (n / d) e := le_max_right _ _
  unfold roundWithAccuracy
  rw [shiftToTargetExponent_eq hd he]
  simp only [roundedMantissa_extended (Nat.mul_pos hd (Nat.two_pow_pos _))]
  exact rounded_carried negative hr hle hnormal

theorem log2_div_pow (q b : Nat) : (q / 2 ^ b).log2 = q.log2 - b := by
  rw [Nat.log2_eq_log_two, Nat.log2_eq_log_two, Nat.log_div_base_pow]

/-- The number of bits of a quotient that is moved by a power of two. -/
theorem log2_mul_pow_div {n d : Nat} {a b : Nat} (h : a ≤ b ∨ n / d ≠ 0) :
    (n * 2 ^ a / (d * 2 ^ b)).log2 = (n / d).log2 + a - b := by
  rcases Nat.le_total a b with hab | hab
  · obtain ⟨c, rfl⟩ := Nat.exists_eq_add_of_le hab
    have hquotient : n * 2 ^ a / (d * 2 ^ (a + c)) = n / d / 2 ^ c := by
      rw [pow_add, mul_left_comm, mul_comm (2 ^ a), Nat.mul_div_mul_right _ _ (Nat.two_pow_pos a),
        Nat.div_div_eq_div_mul]
    rw [hquotient, log2_div_pow]
    omega
  · obtain ⟨c, rfl⟩ := Nat.exists_eq_add_of_le hab
    have hquotient : n * 2 ^ (b + c) / (d * 2 ^ b) = n * 2 ^ c / d := by
      rw [pow_add, mul_comm (2 ^ b), ← mul_assoc, Nat.mul_div_mul_right _ _ (Nat.two_pow_pos b)]
    rcases Nat.eq_zero_or_pos c with rfl | hc
    · rw [hquotient, pow_zero, mul_one]
      omega
    · have hle : 1 ≤ n / d := Nat.one_le_iff_ne_zero.2 (h.resolve_left (by omega))
      have hquotient' : n * 2 ^ c / d / 2 ^ c = n / d := by
        rw [Nat.div_div_eq_div_mul, Nat.mul_div_mul_right _ _ (Nat.two_pow_pos c)]
      have hlog := log2_div_pow (n * 2 ^ c / d) c
      have hpow : 2 ^ c ≤ n * 2 ^ c / d := by
        rwa [← hquotient', Nat.le_div_iff_mul_le (Nat.two_pow_pos c), one_mul] at hle
      have hc : c ≤ (n * 2 ^ c / d).log2 :=
        (Nat.le_log2 (Nat.ne_zero_of_lt (Nat.two_pow_pos _ |>.trans_le hpow))).2 hpow
      rw [hquotient'] at hlog
      rw [hquotient]
      omega

theorem nearest_eq {n d : Nat} (hd : 0 < d) {e : Int} (he : e ≤ cutoff (n / d) e) :
    binary64.nearest (n * 2 ^ e.toNat) (d * 2 ^ (-e).toNat) =
      min ((cutoff (n / d) e + 1074).toNat * 2 ^ 52 +
        roundHalfEven n (d * 2 ^ (cutoff (n / d) e - e).toNat)) binary64.infinity := by
  have hsteps : n * 2 ^ e.toNat * binary64.one = n * 2 ^ (e.toNat + 1074) := by
    rw [one_eq, mul_assoc, ← pow_add]
    rfl
  have hshift : (n * 2 ^ (e.toNat + 1074) / (d * 2 ^ (-e).toNat)).log2 - binary64.fractionBits =
      (cutoff (n / d) e + 1074).toNat := by
    have hfraction : binary64.fractionBits = 52 := rfl
    rw [log2_mul_pow_div (by
      rw [or_iff_not_imp_right, not_not]
      intro h0
      rw [h0, cutoff, Nat.log2_zero] at he
      omega), hfraction]
    rw [cutoff] at he ⊢
    omega
  have hround : roundHalfEven (n * 2 ^ (e.toNat + 1074))
      ((d * 2 ^ (-e).toNat) <<< (cutoff (n / d) e + 1074).toNat) =
        roundHalfEven n (d * 2 ^ (cutoff (n / d) e - e).toNat) := by
    have hle : -1074 ≤ cutoff (n / d) e := le_max_right _ _
    refine roundHalfEven_congr (by rw [Nat.shiftLeft_eq]; positivity) (by positivity) ?_
    have hexponents : e.toNat + 1074 + (cutoff (n / d) e - e).toNat =
        (-e).toNat + (cutoff (n / d) e + 1074).toNat := by omega
    calc n * 2 ^ (e.toNat + 1074) * (d * 2 ^ (cutoff (n / d) e - e).toNat)
        = n * d * 2 ^ (e.toNat + 1074 + (cutoff (n / d) e - e).toNat) := by
          rw [pow_add _ (e.toNat + 1074), mul_mul_mul_comm]
      _ = n * (d * 2 ^ (-e).toNat) <<< (cutoff (n / d) e + 1074).toNat := by
          rw [hexponents, Nat.shiftLeft_eq, pow_add, mul_assoc, mul_assoc]
  unfold BinaryFormat.nearest
  simp only [hsteps, hshift, hround, binade_eq]

/-- The model rounds to the nearest double. -/
theorem ofModel_roundWithAccuracy (negative : Bool) {n d : Nat} (hd : 0 < d) {e : Int}
    (he : e ≤ cutoff (n / d) e) :
    Float.ofModel (Float.Model.pack
      (roundWithAccuracy .binary64 (modelSign negative) (n / d) e (accuracyOfFraction (n % d) d))) =
        ofRatio negative (n * 2 ^ e.toNat) (d * 2 ^ (-e).toNat) := by
  rw [ofModel_pack (rounded_roundWithAccuracy negative hd he), ofRatio, nearest_eq hd he]

theorem ofModel_zero (negative : Bool) {d : Nat} (hd : 0 < d) :
    Float.ofModel (Float.Model.pack (.zero (modelSign negative))) = ofRatio negative 0 d := by
  rw [ofModel_pack (.zero rfl), ofRatio, Nat.zero_min,
    binary64.nearest_eq_zero (by rwa [zero_mul, mul_zero])]

/-! ## Products and quotients -/

theorem modelSign_mul (a b : Bool) : modelSign a * modelSign b = modelSign (a ^^ b) := by
  cases a <;> cases b <;> rfl

theorem modelSign_div (a b : Bool) : modelSign a / modelSign b = modelSign (a ^^ b) := by
  cases a <;> cases b <;> rfl

variable {x y : Float}

theorem mul_toModel (x y : Float) : x * y =
    Float.ofModel (Float.Model.pack (UnpackedFloat.mul .binary64 x.toModel.unpack y.toModel.unpack)) :=
  rfl

theorem div_toModel (x y : Float) : x / y =
    Float.ofModel (Float.Model.pack (UnpackedFloat.div .binary64 x.toModel.unpack y.toModel.unpack)) :=
  rfl

/-- The product of two mantissas has bits enough. -/
theorem le_cutoff_mul {m₁ m₂ : Nat} {e₁ e₂ : Int} (hm₁ : 0 < m₁) (hm₂ : 0 < m₂) (he₁ : -1074 ≤ e₁)
    (he₂ : -1074 ≤ e₂) (hn₁ : -1074 < e₁ → 2 ^ 52 ≤ m₁) (hn₂ : -1074 < e₂ → 2 ^ 52 ≤ m₂) :
    e₁ + e₂ ≤ cutoff (m₁ * m₂) (e₁ + e₂) := by
  have hlog : -1074 < e₁ ∨ -1074 < e₂ → 52 ≤ (m₁ * m₂).log2 := by
    intro h
    refine (Nat.le_log2 (Nat.mul_pos hm₁ hm₂).ne').2 ?_
    rcases h with h | h
    · exact (hn₁ h).trans (Nat.le_mul_of_pos_right _ hm₂)
    · exact (hn₂ h).trans (Nat.le_mul_of_pos_left _ hm₁)
  rw [cutoff]
  omega

/-- The product of two values in units, where the exponents add up. -/
theorem units_mul_units {j k m₁ m₂ : Nat} {e₁ e₂ : Int} (hj : binary64.units j = m₁ * 2 ^ (e₁ + 1074).toNat)
    (hk : binary64.units k = m₂ * 2 ^ (e₂ + 1074).toNat) (hle₁ : -1074 ≤ e₁) (hle₂ : -1074 ≤ e₂) :
    m₁ * m₂ * 2 ^ (e₁ + e₂).toNat * (binary64.one * binary64.one) =
      binary64.units j * binary64.units k * (1 * 2 ^ (-(e₁ + e₂)).toNat) := by
  have hstep : binary64.stepExponent = 1074 := rfl
  have hexponents : (e₁ + e₂).toNat + (binary64.stepExponent + binary64.stepExponent) =
      (e₁ + 1074).toNat + (e₂ + 1074).toNat + (-(e₁ + e₂)).toNat := by omega
  calc m₁ * m₂ * 2 ^ (e₁ + e₂).toNat * (binary64.one * binary64.one)
      = m₁ * m₂ * 2 ^ ((e₁ + e₂).toNat + (binary64.stepExponent + binary64.stepExponent)) := by
        rw [one_eq, pow_add, pow_add, mul_assoc]
    _ = binary64.units j * binary64.units k * (1 * 2 ^ (-(e₁ + e₂)).toNat) := by
        rw [hexponents, hj, hk, pow_add, pow_add]
        ring

/-- The product of finite doubles is the double nearest to the exact one. -/
theorem mul_eq (hx : x.isFinite = true) (hy : y.isFinite = true) :
    x * y = ofRatio (isNegative x ^^ isNegative y) (units x * units y) (binary64.one * binary64.one) := by
  have hone : 0 < binary64.one * binary64.one := Nat.mul_pos (one_pos _) (one_pos _)
  have hzero : binary64.units 0 = 0 := rfl
  have hrounded := rounded_toModel hx
  have hrounded' := rounded_toModel hy
  rw [mul_toModel, units, units]
  generalize isNegative x = a, isNegative y = b, magnitude x = j, magnitude y = k,
    x.toModel.unpack = u, y.toModel.unpack = v at *
  cases hrounded with
  | zero hj =>
    rw [hj, hzero, zero_mul, ← ofModel_zero _ hone, ← modelSign_mul]
    cases hrounded' with
    | zero => rfl
    | finite => rfl
  | finite m₁ e₁ hm₁ hmk₁ hlt₁ hle₁ hn₁ =>
    cases hrounded' with
    | zero hk =>
      rw [hk, hzero, mul_zero, ← ofModel_zero _ hone, ← modelSign_mul]
      rfl
    | finite m₂ e₂ hm₂ hmk₂ hlt₂ hle₂ hn₂ =>
      have hround := ofModel_roundWithAccuracy (a ^^ b) (n := m₁ * m₂) Nat.one_pos (by
        rw [Nat.div_one]
        exact le_cutoff_mul hm₁ hm₂ hle₁ hle₂ hn₁ hn₂)
      rw [Nat.div_one, Nat.mod_one] at hround
      rw [UnpackedFloat.mul, modelSign_mul]
      refine hround.trans (ofRatio_congr (by positivity) hone ?_)
      exact units_mul_units (units_of_parts hmk₁ hlt₁ hle₁ hn₁) (units_of_parts hmk₂ hlt₂ hle₂ hn₂)
        hle₁ hle₂

/-- The division carries on until the quotient has bits enough. -/
theorem divCore_eq {m₁ m₂ : Nat} (hm₁ : 0 < m₁) (hm₂ : 0 < m₂) (e₁ e₂ : Int) : ∃ (s : Nat) (e : Int),
    (s : Int) = e₁ - e₂ - e ∧ e ≤ cutoff (m₁ * 2 ^ s / m₂) e ∧
      UnpackedFloat.divCore .binary64 m₁ e₁ m₂ e₂ =
        (m₁ * 2 ^ s / m₂, e, accuracyOfFraction (m₁ * 2 ^ s % m₂) m₂) := by
  obtain ⟨e, he⟩ : ∃ e, e = min (e₁ - e₂)
      (Max.max (totalExponent m₁ e₁ - totalExponent m₂ e₂ - 53) (-1074)) := ⟨_, rfl⟩
  have htotal : totalExponent m₁ e₁ - totalExponent m₂ e₂ = m₁.log2 + e₁ - m₂.log2 - e₂ := by
    rw [totalExponent, totalExponent]
    omega
  refine ⟨(e₁ - e₂ - e).toNat, e, by omega, ?_, ?_⟩
  · by_cases hleast : e ≤ -1074
    · exact hleast.trans (le_max_right _ _)
    · have hbits : 2 ^ 52 ≤ m₁ * 2 ^ (e₁ - e₂ - e).toNat / m₂ := by
        rw [Nat.le_div_iff_mul_le hm₂]
        calc 2 ^ 52 * m₂ ≤ 2 ^ 52 * 2 ^ (m₂.log2 + 1) := Nat.mul_le_mul_left _ Nat.lt_log2_self.le
          _ = 2 ^ (52 + (m₂.log2 + 1)) := (pow_add _ _ _).symm
          _ ≤ 2 ^ (m₁.log2 + (e₁ - e₂ - e).toNat) := Nat.pow_le_pow_right (by norm_num) (by omega)
          _ = 2 ^ m₁.log2 * 2 ^ (e₁ - e₂ - e).toNat := pow_add _ _ _
          _ ≤ m₁ * 2 ^ (e₁ - e₂ - e).toNat := Nat.mul_le_mul_right _ (Nat.log2_self_le hm₁.ne')
      have hlog : 52 ≤ (m₁ * 2 ^ (e₁ - e₂ - e).toNat / m₂).log2 :=
        (Nat.le_log2 (by omega)).2 hbits
      rw [cutoff]
      omega
  · rw [← Nat.shiftLeft_eq, he]
    rfl

/-- The quotient of finite doubles is the double nearest to the exact one. -/
theorem div_eq (hx : x.isFinite = true) (hy : y.isFinite = true) (hy0 : 0 < magnitude y) :
    x / y = ofRatio (isNegative x ^^ isNegative y) (units x) (units y) := by
  have hzero : binary64.units 0 = 0 := rfl
  have hrounded := rounded_toModel hx
  have hrounded' := rounded_toModel hy
  rw [div_toModel, units, units]
  generalize isNegative x = a, isNegative y = b, magnitude x = j, magnitude y = k,
    x.toModel.unpack = u, y.toModel.unpack = v at *
  cases hrounded' with
  | zero hk => omega
  | finite m₂ e₂ hm₂ hmk₂ hlt₂ hle₂ hn₂ =>
    have hunits₂ := units_of_parts hmk₂ hlt₂ hle₂ hn₂
    have hpos : 0 < binary64.units k := hunits₂ ▸ Nat.mul_pos hm₂ (Nat.two_pow_pos _)
    cases hrounded with
    | zero hj =>
      rw [hj, hzero, ← ofModel_zero _ hpos, ← modelSign_div]
      rfl
    | finite m₁ e₁ hm₁ hmk₁ hlt₁ hle₁ hn₁ =>
      have hunits₁ := units_of_parts hmk₁ hlt₁ hle₁ hn₁
      obtain ⟨s, e, hs, he, hcore⟩ := divCore_eq hm₁ hm₂ e₁ e₂
      rw [UnpackedFloat.div, hcore, modelSign_div]
      refine (ofModel_roundWithAccuracy (a ^^ b) hm₂ he).trans (ofRatio_congr (by positivity) hpos ?_)
      have hexponents : s + e.toNat + (e₂ + 1074).toNat = (e₁ + 1074).toNat + (-e).toNat := by omega
      calc m₁ * 2 ^ s * 2 ^ e.toNat * binary64.units k
          = m₁ * m₂ * 2 ^ (s + e.toNat + (e₂ + 1074).toNat) := by
            rw [hunits₂, pow_add, pow_add]
            ring
        _ = binary64.units j * (m₂ * 2 ^ (-e).toNat) := by
            rw [hexponents, hunits₁, pow_add]
            ring

section

variable (a b : Bool) {j k : Nat} (hj : j < binary64.infinity) (hk : k < binary64.infinity)

include hj hk

theorem ofMagnitude_mul : ofMagnitude a j * ofMagnitude b k =
    ofRatio (a ^^ b) (binary64.units j * binary64.units k) (binary64.one * binary64.one) := by
  rw [mul_eq (isFinite_ofMagnitude a hj) (isFinite_ofMagnitude b hk), units, units,
    magnitude_ofMagnitude a hj.le, magnitude_ofMagnitude b hk.le, isNegative_ofMagnitude a hj.le,
    isNegative_ofMagnitude b hk.le]

theorem ofMagnitude_div (hpos : 0 < k) : ofMagnitude a j / ofMagnitude b k =
    ofRatio (a ^^ b) (binary64.units j) (binary64.units k) := by
  rw [div_eq (isFinite_ofMagnitude a hj) (isFinite_ofMagnitude b hk)
      (by rwa [magnitude_ofMagnitude b hk.le]), units, units,
    magnitude_ofMagnitude a hj.le, magnitude_ofMagnitude b hk.le, isNegative_ofMagnitude a hj.le,
    isNegative_ofMagnitude b hk.le]

end

end SkillBoard.Binary64
