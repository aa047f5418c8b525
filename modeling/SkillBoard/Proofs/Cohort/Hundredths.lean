import SkillBoard.Cohort.Draw
import SkillBoard.Proofs.Binary.Ranges
import SkillBoard.Proofs.Decimal.Shortest
import SkillBoard.Proofs.Export.Json

/-!
# Values in hundredths

`round2` goes by way of hundredths: the product with 100 is rounded to a whole number, and the quotient is
the double nearest to that many hundredths (`round2_eq`). Such values stay within whole ends
(`inHundredths_round2`), and up to 100 they are read back from the numbers that are written of them
(`InHundredths.readsBack`), as their shortest decimals have no more than two places.
-/

namespace SkillBoard

open Binary64

namespace Cohort

/-! ## Rounding to hundredths -/

/-- The number of hundredths that a value is rounded to. -/
def hundredths (x : Float) : Nat := roundHalfUp (units (x * 100)) binary64.one

theorem units_hundred : units 100 = 100 * binary64.one := by decide

theorem isNegative_hundred : isNegative 100 = false := by decide

theorem mul_hundred_eq {x : Float} (hx : x.isFinite = true) :
    x * 100 = ofRatio (isNegative x) (units x * 100) binary64.one := by
  rw [mul_eq hx (by decide), units_hundred, isNegative_hundred, Bool.xor_false]
  apply ofRatio_congr (Nat.mul_pos (one_pos _) (one_pos _)) (one_pos _)
  ring

theorem ofRatio_div_hundred (negative : Bool) {n : Nat} (hn : n < 2 ^ 53) :
    ofRatio negative n 1 / 100 = ofRatio negative n 100 := by
  have hunits : units (ofRatio negative n 1) = n * binary64.one := by
    rw [← units_ofNat hn, units, units, ofNat, magnitude_ofRatio, magnitude_ofRatio]
  have hfinite : (ofRatio negative n 1).isFinite = true :=
    isFinite_ofRatio_of_le _ Nat.one_pos (mul_one n).ge hn
  rw [div_eq hfinite (by decide) (by decide), hunits, units_hundred, isNegative_hundred,
    isNegative_ofRatio, Bool.xor_false]
  apply ofRatio_congr (Nat.mul_pos (by norm_num) (one_pos _)) (by norm_num)
  ring

section

variable {lo hi : Nat} {x : Float} (hx : x.isFinite = true) (hlo : lo * binary64.one ≤ units x)
  (hle : units x ≤ hi * binary64.one) (hhi : hi ≤ 100)

include hx hlo hle hhi

theorem hundredths_mem : lo * 100 ≤ hundredths x ∧ hundredths x ≤ hi * 100 := by
  have hlow : lo * 100 * binary64.one ≤ units x * 100 := by
    rw [Nat.mul_right_comm]
    omega
  have hhigh : units x * 100 ≤ hi * 100 * binary64.one := by
    rw [Nat.mul_right_comm]
    omega
  obtain ⟨h, h'⟩ := units_ofRatio_mem (isNegative x) (one_pos _) hlow hhigh (by omega)
  rw [← mul_hundred_eq hx] at h h'
  exact roundHalfUp_mem (one_pos _) h h'

theorem round2_eq : round2 x = ofRatio (isNegative x) (hundredths x) 100 := by
  obtain ⟨-, hhundredths⟩ := hundredths_mem hx hlo hle hhi
  have hfinite : (x * 100).isFinite = true := by
    have hhigh : units x * 100 ≤ hi * 100 * binary64.one := by
      rw [Nat.mul_right_comm]
      omega
    rw [mul_hundred_eq hx]
    exact isFinite_ofRatio_of_le _ (one_pos _) hhigh (by omega)
  have hsign : isNegative (x * 100) = isNegative x := by
    rw [mul_hundred_eq hx, isNegative_ofRatio]
  rw [round2, Binary64.round, if_pos hfinite, hsign, ← hundredths]
  exact ofRatio_div_hundred _ (by omega)

end

/-! ## Decimals of hundredths -/

section

open Decimal

/-- What keeps to hundredths and below 101 has few digits. -/
theorem short_of_hundredths {d : Decimal} (he : -2 ≤ d.exponent)
    (h : d.toMagnitude binary64 ≤ binary64.nearest 100 1) : Json.Short d := by
  have hlt : d.coefficient * 10 ^ d.exponent.toNat < 101 * 10 ^ (-d.exponent).toNat := by
    by_contra hle
    have hmono : binary64.nearest 101 1 ≤ d.toMagnitude binary64 := by
      rw [toMagnitude_eq]
      exact BinaryFormat.nearest_mono Nat.one_pos (by positivity) (by omega)
    have hgap : binary64.nearest 100 1 < binary64.nearest 101 1 := by decide +kernel
    omega
  obtain ⟨c, e⟩ := d
  simp only at *
  refine ⟨?_, by simp only; omega⟩
  by_cases hnonneg : 0 ≤ e
  · have hpow : (e + 1).toNat = e.toNat + 1 := by omega
    rw [Int.toNat_of_nonpos (by omega : -e ≤ 0), pow_zero] at hlt
    simp only [hpow, pow_succ, ← mul_assoc]
    omega
  · have hpow : (10 : Nat) ^ (-e).toNat ≤ 10 ^ 2 := Nat.pow_le_pow_right (by norm_num) (by omega)
    rw [Int.toNat_of_nonpos (by omega : e ≤ 0), pow_zero] at hlt
    simp only [Int.toNat_of_nonpos (by omega : e + 1 ≤ 0), pow_zero]
    omega

/-- The shortest decimal of a hundredth, up to a hundred, has few digits. -/
theorem short_shortestMagnitude {n : Nat} (hn : n ≤ 100 * 100) (tie : Tie) :
    Json.Short (shortestMagnitude tie (binary64.nearest n 100)) := by
  rcases Nat.eq_zero_or_pos n with rfl | hpos
  · have hzero : Json.Short ⟨0, 0⟩ := by decide
    rw [binary64.nearest_eq_zero (by norm_num)]
    exact hzero
  · have hread : toMagnitude binary64 ⟨n, -2⟩ = binary64.nearest n 100 := by
      rw [toMagnitude_eq]
      exact congrArg (binary64.nearest · 100) (mul_one n)
    have hlo : binary64.nearest 1 100 ≤ binary64.nearest n 100 :=
      BinaryFormat.nearest_mono (by norm_num) (by norm_num) (by omega)
    have hhi : binary64.nearest n 100 ≤ binary64.nearest 100 1 :=
      BinaryFormat.nearest_mono (by norm_num) (by norm_num) (by omega)
    have hstart : gridStart (binary64.nearest 1 100) = -1 := by decide +kernel
    have hend : gridStart (binary64.nearest 100 1) = 3 := by decide +kernel
    have hfirst : 0 < binary64.nearest 1 100 := by decide +kernel
    have hlast : binary64.nearest 100 1 ≤ binary64.infinity := by decide +kernel
    have hle := hhi.trans hlast
    have hgrid := gridStart_mono hlo
    have hgrid' := gridStart_mono hhi
    refine short_of_hundredths ?_ ((toMagnitude_shortestMagnitude tie hle).trans_le hhi)
    exact le_exponent_shortestMagnitude (hfirst.trans_le hlo) hle hread (by omega) (by omega) tie

end

/-! ## Values in hundredths -/

/-- A number of hundredths between two whole numbers; only zero can have a negative sign. -/
def InHundredths (lo hi : Nat) (x : Float) : Prop :=
  ∃ negative n, x = ofRatio negative n 100 ∧ lo * 100 ≤ n ∧ n ≤ hi * 100 ∧ (negative = true → n = 0)

section

variable {lo hi : Nat} {x : Float}

/-- A value between two whole numbers is rounded to hundredths between them. -/
theorem inHundredths_round2 (h : ofNat lo ≤ x) (h' : x ≤ ofNat hi) (hle : lo ≤ hi) (hhi : hi ≤ 100) :
    InHundredths lo hi (round2 x) := by
  have hzero : 0 ≤ x := le_of_le_of_le (zero_le_ofNat lo) h
  have hfinite : x.isFinite = true := by
    have hlast := isFinite_ofNat (n := hi) (by omega)
    rw [isFinite_iff] at hlast ⊢
    exact (magnitude_le_of_le hzero h').trans_lt hlast
  obtain ⟨hlow, hhigh⟩ := units_mem h h' hle (by omega)
  obtain ⟨hlow', hhigh'⟩ := hundredths_mem hfinite hlow hhigh hhi
  refine ⟨_, _, round2_eq hfinite hlow hhigh hhi, hlow', hhigh', ?_⟩
  intro hnegative
  have hunits : units x = 0 := by
    rw [units, magnitude_eq_zero hzero hnegative]
    rfl
  have hlow : 0 * binary64.one ≤ units x := by omega
  have hhigh : units x ≤ 0 * binary64.one := by omega
  obtain ⟨-, hnone⟩ := hundredths_mem hfinite hlow hhigh (by omega)
  omega

namespace InHundredths

variable (h : InHundredths lo hi x)

include h

theorem mem : ofNat lo ≤ x ∧ x ≤ ofNat hi := by
  obtain ⟨negative, n, rfl, hlow, hhigh, hsign⟩ := h
  have hrank : withSign negative (binary64.nearest n 100) = binary64.nearest n 100 := by
    cases negative with
    | false => rfl
    | true =>
      rw [hsign rfl, binary64.nearest_eq_zero (by norm_num)]
      rfl
  rw [ofNat, ofNat, le_iff_rank_le (isNaN_ofRatio _ _ _) (isNaN_ofRatio _ _ _),
    le_iff_rank_le (isNaN_ofRatio _ _ _) (isNaN_ofRatio _ _ _), rank_ofRatio, rank_ofRatio,
    rank_ofRatio, hrank]
  constructor
  · exact Int.ofNat_le.2 (BinaryFormat.nearest_mono Nat.one_pos (by norm_num) (by omega))
  · exact Int.ofNat_le.2 (BinaryFormat.nearest_mono (by norm_num) Nat.one_pos (by omega))

variable (hhi : hi ≤ 100)

include hhi

theorem isFinite : x.isFinite = true := by
  obtain ⟨negative, n, rfl, -, hhigh, -⟩ := h
  exact isFinite_ofRatio_of_le _ (by norm_num) hhigh (by omega)

/-- Hundredths are read back from their shortest decimals. -/
theorem readsBack : Export.ReadsBack x := by
  apply Export.readsBack_of_isShort (h.isFinite hhi)
  obtain ⟨negative, n, rfl, -, hhigh, -⟩ := h
  rw [Export.IsShort, magnitude_ofRatio]
  exact short_shortestMagnitude (by omega) .even

end InHundredths

end

end Cohort

end SkillBoard
