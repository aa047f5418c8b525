import SkillBoard.Proofs.Binary.Sizes

/-!
# Whole numbers above

* `nearest_scaled`: a quotient of 53 bits at some exponent is rounded there.
* `units_ceil`: the least integer that is not below a value is always a double, so it is not rounded.
-/

namespace SkillBoard.Binary64

variable {n d s m a b : Nat} {x : Float}

/-- The quotient is `a / b` at exponent `s`, so it is rounded to the mantissa nearest to `a / b`. -/
theorem nearest_scaled (hd : 0 < d) (hb : 0 < b) (hlo : 2 ^ 52 * b ≤ a) (hhi : a < 2 ^ 53 * b)
    (h : n * (b * binary64.one) = a * 2 ^ s * d) :
    binary64.nearest n d = min (s * 2 ^ 52 + roundHalfEven a b) binary64.infinity := by
  have hone := one_pos binary64
  have hfraction : binary64.fractionBits = 52 := rfl
  have hsteps : a * 2 ^ s * binary64.one / (b * binary64.one) = a * 2 ^ s / b :=
    Nat.mul_div_mul_right _ _ hone
  have hlog : (a * 2 ^ s / b).log2 = 52 + s := by
    have hpos : 2 ^ (52 + s) ≤ a * 2 ^ s / b := by
      rw [Nat.le_div_iff_mul_le hb, pow_add, mul_right_comm]
      exact Nat.mul_le_mul_right _ hlo
    rw [Nat.log2_eq_iff (Nat.ne_zero_of_lt ((Nat.two_pow_pos _).trans_le hpos))]
    refine ⟨hpos, ?_⟩
    have hexponent : 52 + s + 1 = 53 + s := by omega
    rw [Nat.div_lt_iff_lt_mul hb, hexponent, pow_add, mul_right_comm]
    exact Nat.mul_lt_mul_of_pos_right hhi (Nat.two_pow_pos s)
  have hshift : binary64.shift (a * 2 ^ s) (b * binary64.one) = s := by
    rw [BinaryFormat.shift, hsteps, hlog, hfraction, Nat.add_sub_cancel_left]
  have hmantissa : binary64.mantissa (a * 2 ^ s) (b * binary64.one) = roundHalfEven a b := by
    rw [BinaryFormat.mantissa, hshift, mul_assoc, mul_assoc, mul_comm binary64.one,
      roundHalfEven_mul _ _ (Nat.mul_pos (Nat.two_pow_pos s) hone)]
  rw [binary64.nearest_congr hd (Nat.mul_pos hb hone) h, BinaryFormat.nearest_eq_min, hshift, hmantissa,
    binade_eq]

/-- A value of 53 bits at some exponent has its magnitude there. -/
theorem magnitude_of_units (hlo : 2 ^ 52 ≤ m) (hhi : m < 2 ^ 53) (h : units x = m * 2 ^ s) :
    magnitude x = s * 2 ^ 52 + m := by
  apply binary64.units_strictMono.injective
  have hbinade : 2 * binary64.binade = 2 ^ 53 := by rw [binade_eq, ← pow_succ']
  rw [← binade_eq, BinaryFormat.units_of_mantissa (by omega) fun _ => by rwa [binade_eq]]
  exact h

/-! ## The least integer that is not below -/

theorem ceil_eq (hx : x.isFinite = true) (hsign : isNegative x = false) :
    ceil x = ofNat (units x ⌈/⌉ binary64.one) := by
  rw [ceil, if_pos hx, hsign, Nat.ceilDiv_eq_add_pred_div, Nat.add_sub_assoc (one_pos _)]
  rfl

theorem mul_ceilDiv (n : Nat) (hd : 0 < d) : (n * d) ⌈/⌉ d = n := by
  rw [mul_comm]
  exact smul_ceilDiv hd n

/-- Values with a fraction are below `2 ^ 53`, and all integers up to there are doubles. -/
theorem exists_units_ceil (hx : x.isFinite = true) : ∃ k < binary64.infinity,
    binary64.units k = (units x ⌈/⌉ binary64.one) * binary64.one := by
  have hone := one_pos binary64
  obtain ⟨s, m, -, hunits, hlt, -⟩ := binary64.exists_units_eq (magnitude x)
  rw [← units, binade_eq, ← pow_succ'] at *
  rcases Nat.le_total binary64.stepExponent s with hs | hs
  · obtain ⟨c, rfl⟩ := Nat.exists_eq_add_of_le' hs
    rw [pow_add, ← mul_assoc, ← one_eq] at hunits
    refine ⟨magnitude x, (isFinite_iff x).1 hx, ?_⟩
    rw [hunits, mul_ceilDiv _ hone]
    exact hunits
  · have hle : units x ⌈/⌉ binary64.one ≤ 2 ^ 53 := by
      rw [ceilDiv_le_iff_le_mul hone, hunits, one_eq, mul_comm]
      exact Nat.mul_le_mul (Nat.pow_le_pow_right Nat.two_pos hs) hlt.le
    have hself := units_ofNat_of_le hle
    have hfits : Fits (units x ⌈/⌉ binary64.one) := (fits_two_pow_iff.2 (by omega)).mono hle
    exact ⟨_, (isFinite_iff _).1 (AtMost.isFinite hself.le hfits), hself⟩

theorem units_ceil (hx : x.isFinite = true) (hsign : isNegative x = false) : (ceil x).isFinite = true ∧
    units (ceil x) = (units x ⌈/⌉ binary64.one) * binary64.one := by
  obtain ⟨k, hk, hunits⟩ := exists_units_ceil hx
  have hceil : magnitude (ceil x) = k := by
    rw [ceil_eq hx hsign, ofNat, magnitude_ofRatio]
    exact binary64.nearest_units Nat.one_pos hk.le (by rw [hunits, mul_one])
  rw [isFinite_iff, units, hceil]
  exact ⟨hk, hunits⟩

end SkillBoard.Binary64
