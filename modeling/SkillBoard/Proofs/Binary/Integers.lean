import SkillBoard.Proofs.Binary.Order

/-!
# Integers as doubles

An integer of less than 64 bits that goes through a double comes back as the nearest integer that is one
(`abs_sub_roundedInt_le`). Those with a mantissa of 53 bits are such integers themselves
(`roundedInt_eq_self_iff`), and those within 512 of `2 ^ 63` become `2 ^ 63` (`natAbs_roundedInt_lt_iff`).
-/

namespace SkillBoard.Binary64

/-- The integer that the double of an integer is. -/
def roundedInt (i : Int) : Int := truncate (ofInt i)

theorem units_ofInt (i : Int) : units (ofInt i) = binary64.units (binary64.nearest i.natAbs 1) := by
  rw [units, ofInt, magnitude_ofRatio]

theorem natAbs_truncate (x : Float) : (truncate x).natAbs = units x / binary64.one := by
  rw [truncate]
  split_ifs
  · rw [Int.natAbs_neg, Int.natAbs_natCast]
  · rw [Int.natAbs_natCast]

theorem natAbs_roundedInt (i : Int) :
    (roundedInt i).natAbs = binary64.units (binary64.nearest i.natAbs 1) / binary64.one := by
  rw [roundedInt, natAbs_truncate, units_ofInt]

/-- Mantissas of 53 bits with zeros behind them are not rounded. -/
theorem units_nearest_mul_pow {m s : Nat} (hm : m < 2 ^ 53) (hs : s ≤ 971) :
    binary64.units (binary64.nearest (m * 2 ^ s) 1) = m * 2 ^ s * binary64.one := by
  have hstep : binary64.stepExponent = 1074 := rfl
  obtain ⟨k, hk, hunits⟩ := exists_units_eq_mul_pow hm (s := s + binary64.stepExponent) (by omega)
  rw [pow_add, ← mul_assoc, ← one_eq] at hunits
  rw [binary64.nearest_units Nat.one_pos hk.le (by rw [hunits, mul_one]), hunits]

theorem natAbs_roundedInt_mono {i j : Int} (h : i.natAbs ≤ j.natAbs) :
    (roundedInt i).natAbs ≤ (roundedInt j).natAbs := by
  rw [natAbs_roundedInt, natAbs_roundedInt]
  refine Nat.div_le_div_right (binary64.units_strictMono.monotone ?_)
  exact BinaryFormat.nearest_mono Nat.one_pos Nat.one_pos (Nat.mul_le_mul_right 1 h)

theorem roundedInt_nonneg {i : Int} (h : 0 ≤ i) : 0 ≤ roundedInt i := by
  have hsign : isNegative (ofInt i) = decide (i < 0) := isNegative_ofRatio _ _ _
  rw [decide_eq_false (by omega)] at hsign
  rw [roundedInt, truncate, hsign]
  exact Int.natCast_nonneg _

theorem roundedInt_nonpos {i : Int} (h : i < 0) : roundedInt i ≤ 0 := by
  have hsign : isNegative (ofInt i) = decide (i < 0) := isNegative_ofRatio _ _ _
  rw [decide_eq_true h] at hsign
  rw [roundedInt, truncate, hsign]
  exact neg_nonpos.2 (Int.natCast_nonneg _)

theorem roundedInt_of_natAbs {i : Int} (h : (roundedInt i).natAbs = i.natAbs) : roundedInt i = i := by
  rcases lt_or_ge i 0 with hi | hi
  · have := roundedInt_nonpos hi
    omega
  · have := roundedInt_nonneg hi
    omega

theorem natAbs_mul_pow (m : Int) (s : Nat) : (m * 2 ^ s).natAbs = m.natAbs * 2 ^ s := by
  rw [Int.natAbs_mul, Int.natAbs_pow]
  rfl

theorem roundedInt_mul_pow {m : Int} {s : Nat} (hm : m.natAbs < 2 ^ 53) (hs : s ≤ 971) :
    roundedInt (m * 2 ^ s) = m * 2 ^ s := by
  refine roundedInt_of_natAbs ?_
  rw [natAbs_roundedInt, natAbs_mul_pow, units_nearest_mul_pow hm hs, Nat.mul_div_cancel _ (one_pos _)]

theorem roundedInt_eq_self {i : Int} (h : i.natAbs ≤ 2 ^ 53) : roundedInt i = i := by
  rcases h.lt_or_eq with hlt | heq
  · have := roundedInt_mul_pow hlt (Nat.zero_le 971)
    rwa [pow_zero, mul_one] at this
  · rcases Int.natAbs_eq_iff.1 heq with rfl | rfl
    · decide +kernel
    · decide +kernel

theorem roundedInt_pos {i : Int} (h : 0 < i) : 0 < roundedInt i := by
  have hnonneg := roundedInt_nonneg h.le
  have hone := natAbs_roundedInt_mono (i := 1) (j := i) (by omega)
  rw [roundedInt_eq_self (by decide)] at hone
  omega

section

variable {i : Int} (h : i.natAbs < 2 ^ 63)

include h

theorem nearest_natAbs_lt : binary64.nearest i.natAbs 1 < binary64.infinity := by
  have hle : binary64.nearest i.natAbs 1 ≤ binary64.nearest (2 ^ 63) 1 :=
    BinaryFormat.nearest_mono Nat.one_pos Nat.one_pos (by omega)
  exact hle.trans_lt (by decide +kernel)

theorem isFinite_ofInt : (ofInt i).isFinite = true := (isFinite_ofRatio _ _ _).2 (nearest_natAbs_lt h)

theorem isWhole_ofInt : isWhole (ofInt i) = true := by
  rw [isWhole, beq_iff_eq, units_ofInt]
  refine Nat.mod_eq_zero_of_dvd ?_
  by_cases hlt : i.natAbs < 2 ^ 53
  · have hunits := units_nearest_mul_pow hlt (Nat.zero_le 971)
    rw [pow_zero, mul_one] at hunits
    exact hunits ▸ Nat.dvd_mul_left _ _
  · -- an integer with more bits is rounded at one of them
    have hfraction : binary64.fractionBits = 52 := rfl
    have hlog : 53 + binary64.stepExponent ≤ (i.natAbs * binary64.one).log2 := by
      refine (Nat.le_log2 (Nat.mul_pos (by omega) (one_pos _)).ne').2 ?_
      rw [one_eq, pow_add]
      exact Nat.mul_le_mul_right _ (by omega)
    have hshift : binary64.stepExponent ≤ binary64.shift i.natAbs 1 := by
      rw [BinaryFormat.shift, Nat.div_one]
      omega
    rw [BinaryFormat.units_nearest (nearest_natAbs_lt h), one_eq]
    exact Dvd.dvd.mul_left (pow_dvd_pow 2 hshift) _

theorem toRat_ofInt_eq : toRat (ofInt i) = roundedInt i := toRat_eq_truncate (isWhole_ofInt h)

/-- No double is nearer to the integer. -/
theorem abs_sub_roundedInt_le (y : Float) : |(i : ℚ) - roundedInt i| ≤ |(i : ℚ) - toRat y| := by
  rw [← toRat_ofInt_eq h]
  exact abs_sub_ofInt_le (isFinite_ofInt h) y

theorem roundedInt_eq_self_iff :
    roundedInt i = i ↔ ∃ (m : Int) (s : Nat), m.natAbs < 2 ^ 53 ∧ i = m * 2 ^ s := by
  constructor
  · intro heq
    have hunits : units (ofInt i) = i.natAbs * binary64.one :=
      units_of_toRat (by rw [toRat_ofInt_eq h, heq])
    obtain ⟨s, m, -, hparts, hm, -⟩ := binary64.exists_units_eq (magnitude (ofInt i))
    rw [← units, hunits, one_eq] at hparts
    rcases Nat.lt_or_ge s binary64.stepExponent with hs | hs
    · refine ⟨i, 0, ?_, by rw [pow_zero, mul_one]⟩
      refine lt_of_le_of_lt ?_ hm
      refine Nat.le_of_mul_le_mul_right ?_ (Nat.two_pow_pos binary64.stepExponent)
      rw [hparts]
      exact Nat.mul_le_mul_left _ (Nat.pow_le_pow_right Nat.two_pos hs.le)
    · obtain ⟨c, rfl⟩ := Nat.exists_eq_add_of_le hs
      rw [pow_add, mul_comm (2 ^ binary64.stepExponent), ← mul_assoc] at hparts
      have habs := Nat.eq_of_mul_eq_mul_right (Nat.two_pow_pos binary64.stepExponent) hparts
      rcases Int.natAbs_eq_iff.1 habs with hi | hi
      · exact ⟨m, c, by rwa [Int.natAbs_natCast], by rw [hi]; push_cast; rfl⟩
      · exact ⟨-m, c, by rwa [Int.natAbs_neg, Int.natAbs_natCast], by rw [hi]; push_cast; ring⟩
  · rintro ⟨m, s, hm, rfl⟩
    rcases Nat.eq_zero_or_pos m.natAbs with h0 | hpos
    · rw [Int.natAbs_eq_zero.1 h0, zero_mul, roundedInt_eq_self (by decide)]
    · have hpow : 2 ^ s < 2 ^ 63 := by
        rw [natAbs_mul_pow] at h
        exact (Nat.le_mul_of_pos_left _ hpos).trans_lt h
      have hs := (Nat.pow_lt_pow_iff_right (by norm_num : 1 < 2)).1 hpow
      exact roundedInt_mul_pow hm (by omega)

theorem natAbs_roundedInt_lt_iff : (roundedInt i).natAbs < 2 ^ 63 ↔ i.natAbs < 2 ^ 63 - 512 := by
  have hlast : (roundedInt (2 ^ 63 - 513)).natAbs < 2 ^ 63 := by decide +kernel
  have hfirst : 2 ^ 63 ≤ (roundedInt (2 ^ 63 - 512)).natAbs := by decide +kernel
  constructor
  · intro hlt
    by_contra hle
    have := natAbs_roundedInt_mono (i := 2 ^ 63 - 512) (j := i) (by omega)
    omega
  · intro hlt
    have := natAbs_roundedInt_mono (i := i) (j := 2 ^ 63 - 513) (by omega)
    omega

end

theorem units_ofNat {n : Nat} (hn : n < 2 ^ 53) : units (ofNat n) = n * binary64.one := by
  have hunits := units_nearest_mul_pow hn (Nat.zero_le 971)
  rw [units, ofNat, magnitude_ofRatio]
  simpa using hunits

theorem isNegative_ofNat (n : Nat) : isNegative (ofNat n) = false := isNegative_ofRatio _ _ _

theorem isFinite_ofNat {n : Nat} (hn : n < 2 ^ 53) : (ofNat n).isFinite = true := by
  have hlt := nearest_natAbs_lt (i := n) (by omega)
  exact (isFinite_ofRatio false n 1).2 hlt

end SkillBoard.Binary64
