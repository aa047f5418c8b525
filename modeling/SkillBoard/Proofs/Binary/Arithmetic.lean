import SkillBoard.Proofs.Binary.Order

/-!
# Sums and square roots

* `add_eq`: sums of finite doubles are rounded once, as products and quotients are.
* `exists_sqrt_eq`: a square root is rounded from a quotient that keeps within the root of a bound.
* `Bounded`: how large the results can be. Each operation adds to the exponent of the bound, so a formula
  of a few operations stays finite, and it never comes to what is not a number.
-/

namespace SkillBoard.Binary64

open Float.Model (UnpackedFloat totalExponent)
open Float.Model.UnpackedFloat (roundWithAccuracy accuracyOfFraction)

/-! ## Sums -/

theorem add_toModel (x y : Float) : x + y =
    Float.ofModel (Float.Model.pack (UnpackedFloat.add .binary64 x.toModel.unpack y.toModel.unpack)) :=
  rfl

theorem log2_mul_pow {m : Nat} (hm : 0 < m) (s : Nat) : (m * 2 ^ s).log2 = m.log2 + s := by
  have h := log2_mul_pow_div (n := m) (d := 1) (a := s) (b := 0) (.inr (by omega))
  rwa [pow_zero, mul_one, Nat.div_one, Nat.div_one] at h

/-- An integer mantissa is rounded to the nearest double. -/
theorem ofModel_round (negative : Bool) {m : Nat} (hm : 0 < m) (e : Int) :
    Float.ofModel (Float.Model.pack (UnpackedFloat.round .binary64 (modelSign negative) m e)) =
      ofRatio negative (m * 2 ^ e.toNat) (2 ^ (-e).toNat) := by
  obtain ⟨s, hs⟩ : ∃ s, s = (e - cutoff m e).toNat := ⟨_, rfl⟩
  have hlog : (m * 2 ^ s).log2 = m.log2 + s := log2_mul_pow hm s
  have hround : UnpackedFloat.round .binary64 (modelSign negative) m e =
      roundWithAccuracy .binary64 (modelSign negative) (m * 2 ^ s) (e - s) .exact := by
    rw [← Nat.shiftLeft_eq, hs]
    rfl
  have hcutoff : e - s ≤ cutoff (m * 2 ^ s / 1) (e - s) := by
    rw [Nat.div_one, cutoff, hlog]
    rw [cutoff] at hs
    omega
  have hmodel := ofModel_roundWithAccuracy negative Nat.one_pos hcutoff
  rw [Nat.div_one, Nat.mod_one] at hmodel
  rw [hround]
  refine hmodel.trans (ofRatio_congr (by positivity) (by positivity) ?_)
  have hexponents : s + (e - s).toNat + (-e).toNat = e.toNat + (-(e - s)).toNat := by omega
  calc m * 2 ^ s * 2 ^ (e - s).toNat * 2 ^ (-e).toNat
      = m * 2 ^ (s + (e - s).toNat + (-e).toNat) := by rw [pow_add, pow_add]; ring
    _ = m * 2 ^ e.toNat * (1 * 2 ^ (-(e - s)).toNat) := by rw [hexponents, pow_add]; ring

theorem apply_modelSign (negative : Bool) (m : Nat) :
    (modelSign negative).apply m = withSign negative m := by
  cases negative <;> rfl

/-- The sign of a sum: a sum of zero is negative only if both of its parts are. -/
def sumSign (a b : Bool) (s : Int) : Bool := if s = 0 then a && b else decide (s < 0)

theorem sumSign_mul (a b : Bool) (s : Int) {n : Nat} (hn : 0 < n) : sumSign a b (s * n) = sumSign a b s := by
  have hpos : (0 : Int) < n := Int.natCast_pos.2 hn
  have hneg : s * n < 0 ↔ s < 0 := by
    rw [mul_neg_iff]
    omega
  simp only [sumSign, mul_eq_zero, hpos.ne', or_false, hneg]

theorem sumSign_withSign (a b c : Bool) {n : Nat} (hn : 0 < n) : sumSign a b (withSign c n) = c := by
  cases c <;> simp only [sumSign, withSign, Bool.false_eq_true, if_false, if_true]
  · rw [if_neg (by omega), decide_eq_false (by omega)]
  · rw [if_neg (by omega), decide_eq_true (by omega)]

/-- If one part is not zero, a sum of zero has parts of different signs. -/
theorem sumSign_of_pos {a b : Bool} {m n : Nat} (hm : 0 < m) :
    sumSign a b (withSign a m + withSign b n) = sumSign false false (withSign a m + withSign b n) := by
  cases a <;> cases b <;> simp only [sumSign, withSign, Bool.false_eq_true, if_false, if_true]
  · rfl
  · rfl
  · rw [if_neg (by omega), if_neg (by omega)]

theorem normalize_eq (s e : Int) : Float.ofModel (Float.Model.pack
    (UnpackedFloat.normalize .binary64 s e .positive)) =
      ofRatio (sumSign false false s) (s.natAbs * 2 ^ e.toNat) (2 ^ (-e).toNat) := by
  unfold UnpackedFloat.normalize sumSign
  rcases lt_trichotomy s 0 with h | rfl | h
  · have hneg : (-s).toNat = s.natAbs := by omega
    rw [compare_lt_iff_lt.2 h, if_neg h.ne, decide_eq_true h, ← ofModel_round true (by omega), ← hneg]
    rfl
  · rw [compare_eq_iff_eq.2 rfl, if_pos rfl, Int.natAbs_zero, zero_mul, ← ofModel_zero _ (by positivity)]
    rfl
  · have hpos : s.toNat = s.natAbs := by omega
    rw [compare_gt_iff_gt.2 h, if_neg h.ne', decide_eq_false (by omega), ← ofModel_round false (by omega),
      ← hpos]
    rfl

theorem withSign_zero (negative : Bool) : withSign negative 0 = 0 := by cases negative <;> rfl

theorem withSign_mul (negative : Bool) (m n : Nat) : withSign negative (m * n) = withSign negative m * n := by
  cases negative <;> simp [withSign]

theorem natAbs_withSign (negative : Bool) (n : Nat) : (withSign negative n).natAbs = n := by
  cases negative <;> simp [withSign]

/-- Mantissas are added at the smaller exponent. -/
theorem ofModel_add (a b : Bool) {m₁ m₂ : Nat} {e₁ e₂ : Int} (hm₁ : 0 < m₁) (hm₂ : 0 < m₂)
    (hle₁ : -1074 ≤ e₁) (hle₂ : -1074 ≤ e₂) {s : Int}
    (hs : s = withSign a (m₁ * 2 ^ (e₁ + 1074).toNat) + withSign b (m₂ * 2 ^ (e₂ + 1074).toNat)) :
    Float.ofModel (Float.Model.pack (UnpackedFloat.add .binary64 (.finite (modelSign a) m₁ e₁ hm₁)
      (.finite (modelSign b) m₂ e₂ hm₂))) = ofRatio (sumSign a b s) s.natAbs binary64.one := by
  obtain ⟨t, ht⟩ : ∃ t, t = min e₁ e₂ := ⟨_, rfl⟩
  obtain ⟨r, hr⟩ : ∃ r, r =
    withSign a (m₁ * 2 ^ (e₁ - t).toNat) + withSign b (m₂ * 2 ^ (e₂ - t).toNat) := ⟨_, rfl⟩
  have hadd : UnpackedFloat.add .binary64 (.finite (modelSign a) m₁ e₁ hm₁)
      (.finite (modelSign b) m₂ e₂ hm₂) = UnpackedFloat.normalize .binary64 r t .positive := by
    rw [hr, ht, ← apply_modelSign, ← apply_modelSign, ← Nat.shiftLeft_eq, ← Nat.shiftLeft_eq]
    rfl
  have hsplit {e : Int} (he : t ≤ e) (m : Nat) :
      m * 2 ^ (e + 1074).toNat = m * 2 ^ (e - t).toNat * 2 ^ (t + 1074).toNat := by
    rw [mul_assoc, ← pow_add]
    congr 2
    omega
  have hsum : s = r * (2 ^ (t + 1074).toNat : Nat) := by
    rw [hs, hr, hsplit (by omega) m₁, hsplit (by omega) m₂, withSign_mul a, withSign_mul b, add_mul]
  have hsign : sumSign a b s = sumSign false false r := by
    rw [hsum, sumSign_mul _ _ _ (by positivity), hr, sumSign_of_pos (by positivity)]
  have hexponents : t.toNat + binary64.stepExponent = (t + 1074).toNat + (-t).toNat := by
    have hstep : binary64.stepExponent = 1074 := rfl
    omega
  rw [hadd, normalize_eq, hsign]
  refine ofRatio_congr (by positivity) (one_pos _) ?_
  rw [hsum, Int.natAbs_mul, Int.natAbs_natCast, one_eq, mul_assoc, ← pow_add, hexponents, pow_add,
    mul_assoc]

/-- A finite value, counted in smallest steps with its sign. -/
def signedUnits (x : Float) : Int := withSign (isNegative x) (units x)

/-- A finite value is nearest to itself. -/
theorem nearest_units_self {x : Float} (hx : x.isFinite = true) :
    binary64.nearest (units x) binary64.one = magnitude x :=
  binary64.nearest_units (one_pos _) ((isFinite_iff x).1 hx).le rfl

theorem ofRatio_units {x : Float} (hx : x.isFinite = true) :
    ofRatio (isNegative x) (units x) binary64.one = x := by
  rw [ofRatio, nearest_units_self hx, ofMagnitude_self ((isFinite_iff x).1 hx).le]

theorem ofModel_toModel {x : Float} (hx : x.isFinite = true) :
    Float.ofModel (Float.Model.pack x.toModel.unpack) = x := by
  have hk := ((isFinite_iff x).1 hx).le
  rw [ofModel_pack (rounded_toModel hx), min_eq_left hk, ofMagnitude_self hk]

variable {x y : Float}

/-- The sum of finite doubles is the double nearest to the exact one. -/
theorem add_eq (hx : x.isFinite = true) (hy : y.isFinite = true) : x + y =
    ofRatio (sumSign (isNegative x) (isNegative y) (signedUnits x + signedUnits y))
      (signedUnits x + signedUnits y).natAbs binary64.one := by
  have hzero : binary64.units 0 = 0 := rfl
  have hrounded := rounded_toModel hx
  have hrounded' := rounded_toModel hy
  have hmodel := ofModel_toModel hx
  have hmodel' := ofModel_toModel hy
  have hself := ofRatio_units hx
  have hself' := ofRatio_units hy
  simp only [add_toModel, signedUnits, units] at *
  generalize isNegative x = a, isNegative y = b, magnitude x = j, magnitude y = k,
    x.toModel.unpack = u, y.toModel.unpack = v at *
  cases hrounded with
  | zero hj =>
    cases hrounded' with
    | zero hk =>
      rw [hj, hk, hzero, withSign_zero, withSign_zero, add_zero, Int.natAbs_zero,
        ← ofModel_zero _ (one_pos _)]
      cases a <;> cases b <;> rfl
    | finite m e hm hmk hlt hle hn =>
      have hpos : 0 < binary64.units k := units_of_parts hmk hlt hle hn ▸ by positivity
      rw [hj, hzero, withSign_zero, zero_add, natAbs_withSign, sumSign_withSign _ _ _ hpos, hself',
        ← hmodel']
      rfl
  | finite m₁ e₁ hm₁ hmk₁ hlt₁ hle₁ hn₁ =>
    cases hrounded' with
    | zero hk =>
      have hpos : 0 < binary64.units j := units_of_parts hmk₁ hlt₁ hle₁ hn₁ ▸ by positivity
      rw [hk, hzero, withSign_zero, add_zero, natAbs_withSign, sumSign_withSign _ _ _ hpos, hself, ← hmodel]
      rfl
    | finite m₂ e₂ hm₂ hmk₂ hlt₂ hle₂ hn₂ =>
      rw [units_of_parts hmk₁ hlt₁ hle₁ hn₁, units_of_parts hmk₂ hlt₂ hle₂ hn₂]
      exact ofModel_add a b hm₁ hm₂ hle₁ hle₂ rfl

/-! ## Square roots -/

theorem sqrt_toModel (x : Float) : x.sqrt =
    Float.ofModel (Float.Model.pack (UnpackedFloat.sqrt .binary64 x.toModel.unpack)) :=
  rfl

/-- The model's square root: the integer one of a mantissa with bits enough, and what is known of the
rest, as of a number of quarters. -/
theorem sqrtCore_eq {m : Nat} (hm : 0 < m) (e : Int) : ∃ (t : Int) (n : Nat),
    2 * t ≤ e ∧ n / 4 = Nat.sqrt (m * 2 ^ (e - 2 * t).toNat) ∧ t ≤ cutoff (n / 4) t ∧
      UnpackedFloat.sqrtCore .binary64 m e = (n / 4, t, accuracyOfFraction (n % 4) 4) := by
  obtain ⟨t, ht⟩ : ∃ t, t = min (e / 2) (Max.max ((totalExponent m e + 1) / 2 - 53) (-1074)) := ⟨_, rfl⟩
  have htotal : totalExponent m e = m.log2 + 1 + e := rfl
  obtain ⟨r, hr⟩ : ∃ r, r = Nat.sqrt (m * 2 ^ (e - 2 * t).toNat) := ⟨_, rfl⟩
  obtain ⟨rest, hrest⟩ : ∃ rest, rest = m * 2 ^ (e - 2 * t).toNat - r * r := ⟨_, rfl⟩
  have hbits : t ≤ cutoff r t := by
    by_cases hleast : t ≤ -1074
    · exact hleast.trans (le_max_right _ _)
    · have hpow : 2 ^ 52 ≤ r := by
        rw [hr, Nat.le_sqrt', ← pow_mul, ← Nat.le_log2 (Nat.mul_pos hm (Nat.two_pow_pos _)).ne',
          log2_mul_pow hm]
        omega
      have hlog : 52 ≤ r.log2 := (Nat.le_log2 (by omega)).2 hpow
      rw [cutoff]
      omega
  have hcore : UnpackedFloat.sqrtCore .binary64 m e = (r, t,
      if rest = 0 then .exact else .inexact (if rest ≤ r then .lt else .gt)) := by
    rw [hrest, hr, ht, ← Nat.shiftLeft_eq]
    rfl
  have hquarters (c : Nat) (hc : c < 4) : (4 * r + c) / 4 = r ∧ (4 * r + c) % 4 = c := by omega
  refine ⟨t, 4 * r + if rest = 0 then 0 else if rest ≤ r then 1 else 3, by omega, ?_⟩
  obtain ⟨hdiv, hmod⟩ :=
    hquarters (if rest = 0 then 0 else if rest ≤ r then 1 else 3) (by split_ifs <;> omega)
  rw [hdiv, hmod, hcore]
  refine ⟨hr, hbits, ?_⟩
  split_ifs <;> rfl

/-- The square root of a positive double is rounded from quarters of the integer root of its mantissa. -/
theorem sqrt_eq (hx : x.isFinite = true) (hsign : isNegative x = false) (hpos : 0 < magnitude x) :
    ∃ (m n : Nat) (e t : Int), 0 < m ∧ -1074 ≤ e ∧ 2 * t ≤ e ∧ units x = m * 2 ^ (e + 1074).toNat ∧
      n / 4 = Nat.sqrt (m * 2 ^ (e - 2 * t).toNat) ∧
      x.sqrt = ofRatio false (n * 2 ^ t.toNat) (4 * 2 ^ (-t).toNat) := by
  have hrounded := rounded_toModel hx
  rw [sqrt_toModel, units]
  rw [hsign] at hrounded
  generalize magnitude x = k, x.toModel.unpack = u at *
  cases hrounded with
  | zero hk => exact absurd hk hpos.ne'
  | finite m e hm hmk hlt hle hn =>
    obtain ⟨t, n, ht, hroot, hcutoff, hcore⟩ := sqrtCore_eq hm e
    have hsqrt : UnpackedFloat.sqrt .binary64 (.finite (modelSign false) m e hm) =
        roundWithAccuracy .binary64 (modelSign false) (n / 4) t (accuracyOfFraction (n % 4) 4) := by
      show UnpackedFloat.sqrt .binary64 (.finite .positive m e hm) = _
      rw [UnpackedFloat.sqrt, hcore]
      rfl
    refine ⟨m, n, e, t, hm, hle, ht, units_of_parts hmk hlt hle hn, hroot, ?_⟩
    rw [hsqrt]
    exact ofModel_roundWithAccuracy false (by norm_num) hcutoff

theorem sqrt_of_magnitude_eq_zero (h : magnitude x = 0) : x.sqrt = ofRatio (isNegative x) 0 1 := by
  have hx : x.isFinite = true := (isFinite_iff x).2 (by rw [h]; decide)
  have hrounded := rounded_toModel hx
  rw [sqrt_toModel]
  rw [h] at hrounded
  generalize isNegative x = a, x.toModel.unpack = u at *
  cases hrounded with
  | zero =>
    rw [← ofModel_zero _ Nat.one_pos]
    rfl
  | finite m e hm hmk hlt hle hn =>
    have hunits := units_of_parts hmk hlt hle hn
    exact absurd hunits (Nat.mul_pos hm (Nat.two_pow_pos _)).ne

/-- The square root of a finite double that is not negative is at most the root of a bound. -/
theorem exists_sqrt_eq (hx : x.isFinite = true) (hsign : isNegative x = true → magnitude x = 0)
    {b : Nat} (hb : units x < 2 ^ (2 * b) * binary64.one) :
    ∃ n d, 0 < d ∧ n ≤ 2 ^ b * d ∧ x.sqrt = ofRatio (isNegative x) n d := by
  rcases Nat.eq_zero_or_pos (magnitude x) with hzero | hpos
  · exact ⟨0, 1, Nat.one_pos, Nat.zero_le _, sqrt_of_magnitude_eq_zero hzero⟩
  have hnonneg : isNegative x = false := Bool.eq_false_iff.2 fun h => hpos.ne' (hsign h)
  obtain ⟨m, n, e, t, hm, he, ht, hunits, hroot, hsqrt⟩ := sqrt_eq hx hnonneg hpos
  refine ⟨_, _, by positivity, ?_, hnonneg ▸ hsqrt⟩
  have hlog : (m.log2 : Int) + e < 2 * b := by
    have hstep : binary64.stepExponent = 1074 := rfl
    rw [hunits, one_eq, ← pow_add,
      ← Nat.log2_lt (Nat.mul_pos hm (Nat.two_pow_pos _)).ne', log2_mul_pow hm] at hb
    omega
  have hlt : n / 4 < 2 ^ (b - t).toNat := by
    rw [hroot, Nat.sqrt_lt', ← pow_mul, ← Nat.log2_lt (Nat.mul_pos hm (Nat.two_pow_pos _)).ne',
      log2_mul_pow hm]
    omega
  have hexponents : (b - t).toNat + t.toNat = b + (-t).toNat := by omega
  calc n * 2 ^ t.toNat ≤ 4 * 2 ^ (b - t).toNat * 2 ^ t.toNat := Nat.mul_le_mul_right _ (by omega)
    _ = 2 ^ b * (4 * 2 ^ (-t).toNat) := by rw [mul_assoc, ← pow_add, hexponents, pow_add]; ring

/-! ## Bounds -/

/-- The size of the value is at most `2 ^ b`. -/
def Bounded (b : Nat) (x : Float) : Prop := magnitude x ≤ (1023 + b) * 2 ^ 52

instance (b : Nat) (x : Float) : Decidable (Bounded b x) := inferInstanceAs (Decidable (_ ≤ _))

theorem units_two_pow (b : Nat) : binary64.units ((1023 + b) * 2 ^ 52) = 2 ^ b * binary64.one := by
  have hstep : binary64.stepExponent = 1074 := rfl
  have hunits := units_of_parts (k := (1023 + b) * 2 ^ 52) (m := 2 ^ 52) (e := b - 52)
    (by push_cast; ring) (by norm_num) (by omega) fun _ => le_rfl
  have he : (b - 52 + 1074 : Int).toNat + 52 = b + 1074 := by omega
  rw [hunits, one_eq, hstep, mul_comm, ← pow_add, ← pow_add, he]

theorem bounded_ofRatio (negative : Bool) {n d b : Nat} (hd : 0 < d) (h : n ≤ 2 ^ b * d) :
    Bounded b (ofRatio negative n d) := by
  rw [Bounded, magnitude_ofRatio]
  by_cases hb : b ≤ 1023
  · have hpow : binary64.nearest (2 ^ b) 1 = (1023 + b) * 2 ^ 52 :=
      binary64.nearest_units Nat.one_pos (by rw [infinity_eq]; omega) (by rw [units_two_pow, mul_one])
    exact hpow ▸ BinaryFormat.nearest_mono hd Nat.one_pos (by rwa [mul_one])
  · have hinf := infinity_eq
    exact (nearest_le_infinity n d).trans (by omega)

namespace Bounded

variable {a b c : Nat}

theorem mono (h : Bounded a x) (hab : a ≤ b) : Bounded b x :=
  le_trans h (Nat.mul_le_mul_right _ (by omega))

theorem isFinite (h : Bounded b x) (hb : b ≤ 1023) : x.isFinite = true := by
  rw [isFinite_iff, infinity_eq]
  rw [Bounded] at h
  omega

theorem units_le (h : Bounded b x) : units x ≤ 2 ^ b * binary64.one := by
  rw [← units_two_pow, units]
  exact binary64.units_strictMono.monotone h

theorem mul (hx : Bounded a x) (hy : Bounded b y) (h : a + b ≤ c ∧ c ≤ 1023) :
    Bounded c (x * y) := by
  rw [mul_eq (hx.isFinite (by omega)) (hy.isFinite (by omega))]
  apply bounded_ofRatio _ (Nat.mul_pos (one_pos _) (one_pos _))
  calc units x * units y ≤ 2 ^ a * binary64.one * (2 ^ b * binary64.one) :=
        Nat.mul_le_mul hx.units_le hy.units_le
    _ = 2 ^ (a + b) * (binary64.one * binary64.one) := by rw [pow_add, mul_mul_mul_comm]
    _ ≤ 2 ^ c * (binary64.one * binary64.one) :=
        Nat.mul_le_mul_right _ (Nat.pow_le_pow_right Nat.two_pos h.1)

theorem add (hx : Bounded a x) (hy : Bounded b y) (h : a < c ∧ b < c ∧ c ≤ 1024) :
    Bounded c (x + y) := by
  rw [add_eq (hx.isFinite (by omega)) (hy.isFinite (by omega))]
  apply bounded_ofRatio _ (one_pos _)
  have hc : c = c - 1 + 1 := by omega
  have hx : Bounded (c - 1) x := hx.mono (by omega)
  have hy : Bounded (c - 1) y := hy.mono (by omega)
  calc (signedUnits x + signedUnits y).natAbs ≤ units x + units y := by
        refine (Int.natAbs_add_le _ _).trans_eq ?_
        rw [signedUnits, signedUnits, natAbs_withSign, natAbs_withSign]
    _ ≤ 2 ^ (c - 1) * binary64.one + 2 ^ (c - 1) * binary64.one := Nat.add_le_add hx.units_le hy.units_le
    _ = 2 ^ c * binary64.one := by rw [← add_mul, ← mul_two, ← pow_succ, ← hc]

end Bounded

theorem bounded_sqrt (hx : x.isFinite = true) (hsign : isNegative x = true → magnitude x = 0) :
    Bounded 512 x.sqrt := by
  have hunits : units x < 2 ^ (2 * 512) * binary64.one := by
    rw [← units_two_pow, units]
    exact binary64.units_strictMono ((isFinite_iff x).1 hx)
  obtain ⟨n, d, hd, hle, hsqrt⟩ := exists_sqrt_eq hx hsign hunits
  exact hsqrt ▸ bounded_ofRatio _ hd hle

end SkillBoard.Binary64
