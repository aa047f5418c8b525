import SkillBoard.Proofs.Binary.Bits

/-!
# The nearest magnitude

* `nearest_congr`: it depends on the value of the quotient only.
* `nearest_units`: a value of the format is nearest to itself.
* `nearest_eq_infinity`, `nearest_eq_zero`: far above all values, and far below the smallest step.
* `toRat_ofInt`: an integer that is a double is rounded to itself.
-/

namespace SkillBoard

/-! ## Rounding -/

theorem roundHalfEven_mul (n d : Nat) {c : Nat} (hc : 0 < c) :
    roundHalfEven (n * c) (d * c) = roundHalfEven n d := by
  have hcompare : compare (2 * (n % d * c)) (d * c) = compare (2 * (n % d)) d := by
    rw [← mul_assoc, Nat.compare_eq_ite_lt, Nat.compare_eq_ite_lt]
    simp only [Nat.mul_lt_mul_right hc]
  rw [roundHalfEven, Nat.mul_mod_mul_right, Nat.mul_div_mul_right _ _ hc, hcompare, roundHalfEven]

theorem roundHalfEven_congr {n d n' d' : Nat} (hd : 0 < d) (hd' : 0 < d') (h : n * d' = n' * d) :
    roundHalfEven n d = roundHalfEven n' d' := by
  rw [← roundHalfEven_mul n d hd', h, mul_comm d d', roundHalfEven_mul n' d' hd]

theorem roundHalfEven_of_mul (q : Nat) {d : Nat} (hd : 0 < d) : roundHalfEven (q * d) d = q := by
  have hcompare : compare 0 d = .lt := Nat.compare_eq_lt.2 hd
  rw [roundHalfEven, Nat.mul_mod_left, mul_zero, hcompare, Nat.mul_div_cancel _ hd]

theorem roundHalfEven_eq_zero {n d : Nat} (h : 2 * n < d) : roundHalfEven n d = 0 := by
  have hlt : n < d := by omega
  have hcompare : compare (2 * n) d = .lt := Nat.compare_eq_lt.2 h
  rw [roundHalfEven, Nat.mod_eq_of_lt hlt, hcompare, Nat.div_eq_of_lt hlt]

/-! ## The nearest magnitude -/

namespace BinaryFormat

variable (f : BinaryFormat)

theorem binade_pos : 0 < f.binade := by
  rw [binade, Nat.one_shiftLeft]
  positivity

theorem nearest_mul (n d : Nat) {c : Nat} (hc : 0 < c) :
    f.nearest (n * c) (d * c) = f.nearest n d := by
  unfold nearest
  simp only [Nat.shiftLeft_eq]
  rw [mul_right_comm n c, Nat.mul_div_mul_right _ _ hc, mul_right_comm d c, roundHalfEven_mul _ _ hc]

theorem nearest_congr {n d n' d' : Nat} (hd : 0 < d) (hd' : 0 < d') (h : n * d' = n' * d) :
    f.nearest n d = f.nearest n' d' := by
  rw [← f.nearest_mul n d hd', h, mul_comm d d', f.nearest_mul n' d' hd]

/-- A magnitude is an exponent and a mantissa, and its steps are the mantissa at that exponent. -/
theorem exists_units_eq (k : Nat) : ∃ s m, k = s * f.binade + m ∧ f.units k = m * 2 ^ s ∧
    m < 2 * f.binade ∧ (0 < s → f.binade ≤ m) := by
  have hpos := f.binade_pos
  by_cases hlow : k < f.binade
  · refine ⟨0, k, ?_, ?_, by omega, by omega⟩
    · omega
    · rw [units, if_pos hlow, pow_zero, mul_one]
  · have hone : 1 ≤ k / f.binade := (Nat.one_le_div_iff hpos).2 (by omega)
    have hmod := Nat.mod_lt k hpos
    refine ⟨k / f.binade - 1, f.binade + k % f.binade, ?_, ?_, by omega, by omega⟩
    · have hdiv := Nat.div_add_mod k f.binade
      rw [Nat.sub_mul, mul_comm (k / f.binade), one_mul]
      have hle : f.binade ≤ f.binade * (k / f.binade) := Nat.le_mul_of_pos_right _ hone
      omega
    · rw [units, if_neg hlow, Nat.shiftLeft_eq]

theorem log2_sub_fractionBits {s m : Nat} (hlt : m < 2 * f.binade) (hle : 0 < s → f.binade ≤ m) :
    (m * 2 ^ s).log2 - f.fractionBits = s := by
  rw [binade, Nat.one_shiftLeft] at hlt hle
  rcases Nat.eq_zero_or_pos s with rfl | hs
  · rw [pow_zero, mul_one]
    rcases Nat.eq_zero_or_pos m with rfl | hm
    · rw [Nat.log2_zero, Nat.zero_sub]
    · have hlog : m.log2 < f.fractionBits + 1 := (Nat.log2_lt hm.ne').2 (by rw [pow_succ]; omega)
      omega
  · have hle := hle hs
    have hpos : 0 < m * 2 ^ s := Nat.mul_pos (Nat.two_pow_pos _ |>.trans_le hle) (Nat.two_pow_pos s)
    have hlog : (m * 2 ^ s).log2 = f.fractionBits + s := by
      rw [Nat.log2_eq_iff hpos.ne', pow_succ, pow_add, mul_right_comm]
      refine ⟨Nat.mul_le_mul_right _ hle, ?_⟩
      rw [mul_comm _ 2]
      exact Nat.mul_lt_mul_of_pos_right hlt (Nat.two_pow_pos s)
    rw [hlog, Nat.add_sub_cancel_left]

/-- A value of the format is nearest to itself. -/
theorem nearest_units {n d k : Nat} (hd : 0 < d) (hk : k ≤ f.infinity)
    (h : n * f.one = f.units k * d) : f.nearest n d = k := by
  obtain ⟨s, m, hparts, hunits, hlt, hle⟩ := f.exists_units_eq k
  have hshift : (m * 2 ^ s).log2 - f.fractionBits = s := f.log2_sub_fractionBits hlt hle
  have hround : roundHalfEven (m * 2 ^ s * d) (d * 2 ^ s) = m := by
    rw [mul_assoc, mul_comm (2 ^ s) d]
    exact roundHalfEven_of_mul m (by positivity)
  unfold nearest
  simp only [h, hunits, Nat.mul_div_cancel _ hd, hshift, Nat.shiftLeft_eq, hround]
  rw [← hparts, min_eq_left hk]

theorem nearest_eq_zero {n d : Nat} (h : 2 * (n * f.one) < d) : f.nearest n d = 0 := by
  have hlog : (n * f.one / d).log2 = 0 := by
    rw [Nat.div_eq_of_lt (by omega), Nat.log2_zero]
  unfold nearest
  simp only [hlog, Nat.zero_sub, Nat.shiftLeft_zero, roundHalfEven_eq_zero h, zero_mul, zero_add,
    Nat.zero_min]

/-- A quotient of at least `2 ^ e` is past all values if an exponent of `e` is. -/
theorem nearest_eq_infinity {n d e : Nat} (hd : 0 < d) (h : d * 2 ^ e ≤ n)
    (he : f.infinity ≤ (f.stepExponent + e - f.fractionBits) * f.binade) :
    f.nearest n d = f.infinity := by
  have hsteps : 2 ^ (f.stepExponent + e) ≤ n * f.one / d := by
    rw [Nat.le_div_iff_mul_le hd, Binary64.one_eq, pow_add, mul_assoc, mul_comm (2 ^ f.stepExponent),
      mul_comm (2 ^ e)]
    exact Nat.mul_le_mul_right _ h
  have hlog : f.stepExponent + e ≤ (n * f.one / d).log2 :=
    (Nat.le_log2 (Nat.ne_zero_of_lt (Nat.two_pow_pos _ |>.trans_le hsteps))).2 hsteps
  unfold nearest
  simp only []
  refine min_eq_right (he.trans (le_trans (Nat.mul_le_mul_right _ ?_) (Nat.le_add_right _ _)))
  omega

end BinaryFormat

/-! ## Integers -/

namespace Binary64

theorem ofRatio_congr {negative : Bool} {n d n' d' : Nat} (hd : 0 < d) (hd' : 0 < d')
    (h : n * d' = n' * d) : ofRatio negative n d = ofRatio negative n' d' := by
  rw [ofRatio, ofRatio, binary64.nearest_congr hd hd' h]

/-- Mantissas of 53 bits are values at every exponent of the format. -/
theorem exists_units_eq_mul_pow {m s : Nat} (hm : m < 2 ^ 53) (hs : s ≤ 2045) :
    ∃ k < binary64.infinity, binary64.units k = m * 2 ^ s := by
  rcases Nat.eq_zero_or_pos m with rfl | hpos
  · exact ⟨0, by decide, by rw [zero_mul]; rfl⟩
  -- the mantissa takes as many bits of the exponent as it has room for
  obtain ⟨c, hc⟩ : ∃ c, c = min (52 - m.log2) s := ⟨_, rfl⟩
  have hlog : m.log2 < 53 := (Nat.log2_lt hpos.ne').2 hm
  have hlt : m * 2 ^ c < 2 ^ 53 := by
    calc m * 2 ^ c < 2 ^ (m.log2 + 1) * 2 ^ c :=
          Nat.mul_lt_mul_of_pos_right Nat.lt_log2_self (Nat.two_pow_pos c)
      _ = 2 ^ (m.log2 + 1 + c) := (pow_add _ _ _).symm
      _ ≤ 2 ^ 53 := Nat.pow_le_pow_right (by norm_num) (by omega)
  have hnormal : 0 < s - c → 2 ^ 52 ≤ m * 2 ^ c := by
    intro h
    have hc : m.log2 + c = 52 := by omega
    rw [← hc, pow_add]
    exact Nat.mul_le_mul_right _ (Nat.log2_self_le hpos.ne')
  refine ⟨(s - c) * 2 ^ 52 + m * 2 ^ c, ?_, ?_⟩
  · rw [infinity_eq]
    omega
  · have hunits := units_of_parts (k := (s - c) * 2 ^ 52 + m * 2 ^ c) (e := (s - c : Nat) - 1074)
      (by push_cast; ring) hlt (by omega) (fun h => hnormal (by omega))
    have he : ((s - c : Nat) - 1074 + 1074 : Int).toNat = s - c := by omega
    rw [hunits, he, mul_assoc, ← pow_add, Nat.add_sub_cancel' (by omega)]

/-- Integers of 53 bits, with zeros behind them, are doubles. -/
theorem ofNat_eq {m s : Nat} (hm : m < 2 ^ 53) (hs : s ≤ 971) : ∃ k < binary64.infinity,
    ofNat (m * 2 ^ s) = ofMagnitude false k ∧ binary64.units k = m * 2 ^ s * binary64.one := by
  have hstep : binary64.stepExponent = 1074 := rfl
  obtain ⟨k, hk, hunits⟩ := exists_units_eq_mul_pow hm (s := s + binary64.stepExponent) (by omega)
  rw [pow_add, ← mul_assoc, ← one_eq] at hunits
  refine ⟨k, hk, ?_, hunits⟩
  rw [ofNat, ofRatio, binary64.nearest_units Nat.one_pos hk.le (by rw [hunits, mul_one])]

variable {x : Float} {i : Int}

/-- An integer that some double equals is nearest to that double. -/
theorem nearest_natAbs (hx : x.isFinite = true) (hi : toRat x = i) :
    binary64.nearest i.natAbs 1 = magnitude x := by
  have hunits : binary64.units (magnitude x) = i.natAbs * binary64.one := units_of_toRat hi
  refine binary64.nearest_units Nat.one_pos ((isFinite_iff x).1 hx).le ?_
  rw [hunits, mul_one]

/-- The double of such an integer equals it; only the sign of a zero can differ. -/
theorem toRat_ofInt (hx : x.isFinite = true) (hi : toRat x = i) :
    (ofInt i).isFinite = true ∧ toRat (ofInt i) = i := by
  have hk := (isFinite_iff x).1 hx
  have hone : (binary64.one : ℚ) ≠ 0 := Nat.cast_ne_zero.2 (one_pos _).ne'
  have hunits : binary64.units (magnitude x) = i.natAbs * binary64.one := units_of_toRat hi
  rw [ofInt, ofRatio, nearest_natAbs hx hi]
  refine ⟨isFinite_ofMagnitude _ hk, ?_⟩
  rw [toRat_ofMagnitude _ hk.le, hunits, withSign_natAbs_mul, div_eq_iff hone, Int.cast_mul,
    Int.cast_natCast]

end Binary64

end SkillBoard
