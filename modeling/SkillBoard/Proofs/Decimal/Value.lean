import SkillBoard.Decimal.Basic
import SkillBoard.Proofs.Binary.Nearest

/-!
# The values of decimals

* `toMagnitude_congr`: decimals of one value are read as one magnitude, whatever the cut-offs of
  `toMagnitude` make of their exponents.
* `toMagnitude_shortestMagnitude`: the shortest decimal of a magnitude is read back as it.
-/

namespace SkillBoard.Decimal

open Binary64 (infinity_eq binade_eq one_eq one_pos)

/-- The number that a decimal stands for. -/
def toRat (d : Decimal) : ℚ := d.coefficient * 10 ^ d.exponent

theorem tenPow_eq (n : Nat) : tenPow n = 10 ^ n := rfl

/-! ## Reading depends on the value -/

theorem two_pow_le_ten_pow (n : Nat) : 2 ^ (3 * n) ≤ 10 ^ n := by
  rw [pow_mul]
  exact Nat.pow_le_pow_left (by norm_num) n

theorem nearest_of_large {c e : Nat} (hc : 0 < c) (he : 400 < e) :
    binary64.nearest (c * 10 ^ e) 1 = binary64.infinity := by
  have hpow : 2 ^ (3 * e) ≤ c * 10 ^ e :=
    (two_pow_le_ten_pow e).trans (Nat.le_mul_of_pos_left _ hc)
  have hstep : binary64.stepExponent = 1074 := rfl
  have hfraction : binary64.fractionBits = 52 := rfl
  refine binary64.nearest_eq_infinity (by norm_num) (by rwa [one_mul]) ?_
  rw [infinity_eq, binade_eq]
  exact Nat.mul_le_mul_right _ (by omega)

theorem nearest_of_small {c e : Nat} (he : 400 + c.log2 < e) :
    binary64.nearest c (10 ^ e) = 0 := by
  refine binary64.nearest_eq_zero ?_
  have hc : c < 2 ^ (c.log2 + 1) := Nat.lt_log2_self
  have hstep : binary64.stepExponent = 1074 := rfl
  calc 2 * (c * binary64.one)
      < 2 * (2 ^ (c.log2 + 1) * binary64.one) :=
        Nat.mul_lt_mul_of_pos_left (Nat.mul_lt_mul_of_pos_right hc (one_pos _)) (by norm_num)
    _ = 2 ^ (1 + (c.log2 + 1 + binary64.stepExponent)) := by
        rw [one_eq, pow_add 2 1, pow_add 2 (c.log2 + 1), pow_one]
    _ ≤ 2 ^ (3 * e) := Nat.pow_le_pow_right (by norm_num) (by omega)
    _ ≤ 10 ^ e := two_pow_le_ten_pow e

/-- The cut-offs only save work. -/
theorem toMagnitude_eq (d : Decimal) : d.toMagnitude binary64 =
    binary64.nearest (d.coefficient * 10 ^ d.exponent.toNat) (10 ^ (-d.exponent).toNat) := by
  unfold toMagnitude
  simp only [tenPow_eq]
  split_ifs with h0 hlarge hsmall hnonneg
  · rw [h0, zero_mul]
    exact (binary64.nearest_eq_zero (by rw [zero_mul, mul_zero]; positivity)).symm
  · rw [Int.toNat_of_nonpos (by omega : -d.exponent ≤ 0), pow_zero]
    exact (nearest_of_large (Nat.pos_of_ne_zero h0) (by omega)).symm
  · rw [Int.toNat_of_nonpos (by omega : d.exponent ≤ 0), pow_zero, mul_one]
    exact (nearest_of_small (by omega)).symm
  · rw [Int.toNat_of_nonpos (by omega : -d.exponent ≤ 0), pow_zero]
  · rw [Int.toNat_of_nonpos (by omega : d.exponent ≤ 0), pow_zero, mul_one]

theorem toRat_mul_pow (d : Decimal) :
    d.toRat * 10 ^ (-d.exponent).toNat = d.coefficient * 10 ^ d.exponent.toNat := by
  have hexp : d.exponent + ((-d.exponent).toNat : Int) = (d.exponent.toNat : Int) := by omega
  rw [toRat, mul_assoc, ← zpow_natCast, ← zpow_add₀ (by norm_num), hexp, zpow_natCast]

/-- **Reading depends on the value only.** -/
theorem toMagnitude_congr {d d' : Decimal} (h : d.toRat = d'.toRat) :
    d.toMagnitude binary64 = d'.toMagnitude binary64 := by
  rw [toMagnitude_eq, toMagnitude_eq]
  refine binary64.nearest_congr (by positivity) (by positivity) ?_
  have hcross : (d.coefficient * 10 ^ d.exponent.toNat * 10 ^ (-d'.exponent).toNat : ℚ) =
      d'.coefficient * 10 ^ d'.exponent.toNat * 10 ^ (-d.exponent).toNat := by
    rw [← toRat_mul_pow, ← toRat_mul_pow, h]
    ring
  exact_mod_cast hcross

/-! ## The shortest decimal -/

theorem toMagnitude_exact {k : Nat} (hk : k ≤ binary64.infinity) :
    (exact k).toMagnitude binary64 = k := by
  rw [toMagnitude_eq, exact]
  simp only [neg_neg, Int.toNat_natCast, Int.toNat_neg_natCast, pow_zero, mul_one, Nat.pow_eq]
  refine binary64.nearest_units (by positivity) hk ?_
  rw [one_eq, mul_assoc, ← mul_pow, (by norm_num : 5 * 2 = 10)]

theorem toMagnitude_of_first {k : Nat} {a b d : Decimal}
    (h : (if a.toMagnitude binary64 = k then some a
      else if b.toMagnitude binary64 = k then some b else none) = some d) :
    d.toMagnitude binary64 = k := by
  split_ifs at h with ha hb
  · exact Option.some.inj h ▸ ha
  · exact Option.some.inj h ▸ hb

theorem toMagnitude_of_onGrid? {tie : Tie} {k : Nat} {e : Int} {d : Decimal}
    (h : onGrid? tie k e = some d) : d.toMagnitude binary64 = k :=
  toMagnitude_of_first h

/-- What the search finds reads back, and so does its last resort. -/
theorem toMagnitude_shortestMagnitude (tie : Tie) {k : Nat} (hk : k ≤ binary64.infinity) :
    (shortestMagnitude tie k).toMagnitude binary64 = k := by
  unfold shortestMagnitude
  by_cases h0 : k = 0
  · rw [if_pos h0, h0]
    rfl
  · rw [if_neg h0]
    generalize hfind : (List.range 20).findSome? _ = found
    cases found with
    | none => exact toMagnitude_exact hk
    | some d =>
      obtain ⟨i, -, hi⟩ := List.exists_of_findSome?_eq_some hfind
      exact toMagnitude_of_onGrid? hi

end SkillBoard.Decimal
