import SkillBoard.Proofs.Binary.Rounding

/-!
# Rounding keeps the order

* `units_strictMono`, `nearest_mono`: larger magnitudes have larger values, and a larger quotient never has
  a smaller nearest magnitude.
* `dist_nearest_le`: no magnitude is nearer to a quotient than its nearest one.
* `Binary64.abs_sub_ofInt_le`: so the double of an integer is the nearest one there is.
-/

namespace SkillBoard

/-! ## Rounding -/

theorem roundHalfEven_eq_add (n d : Nat) : roundHalfEven n d =
    n / d + if 2 * (n % d) < d then 0 else if d < 2 * (n % d) then 1 else n / d % 2 := by
  rw [roundHalfEven, Nat.compare_eq_ite_lt]
  split_ifs <;> rfl

theorem roundHalfEven_mono {n n' : Nat} (d : Nat) (h : n ≤ n') :
    roundHalfEven n d ≤ roundHalfEven n' d := by
  have hle : n / d ≤ n' / d := Nat.div_le_div_right h
  rcases hle.lt_or_eq with hlt | heq
  · have hhi := (Binary64.le_roundHalfEven n d).2
    have hlo := (Binary64.le_roundHalfEven n' d).1
    omega
  · -- between the same multiples the larger one has the larger rest
    have hrest : n % d ≤ n' % d := by
      have hn := Nat.div_add_mod n d
      have hn' := Nat.div_add_mod n' d
      rw [heq] at hn
      omega
    rw [roundHalfEven_eq_add, roundHalfEven_eq_add, heq]
    split_ifs <;> omega

/-- No multiple of `d` is nearer to `n` than the rounded one. -/
theorem dist_roundHalfEven_le {n d : Nat} (hd : 0 < d) (q : Nat) :
    Nat.dist n (roundHalfEven n d * d) ≤ Nat.dist n (q * d) := by
  have hn := Nat.div_add_mod n d
  have hrest := Nat.mod_lt n hd
  rw [mul_comm] at hn
  have hq : q * d ≤ n / d * d ∨ n / d * d + d ≤ q * d := by
    rcases Nat.lt_or_ge (n / d) q with h | h
    · exact .inr (by rw [← Nat.succ_mul]; exact Nat.mul_le_mul_right d h)
    · exact .inl (Nat.mul_le_mul_right d h)
  rw [roundHalfEven_eq_add, Nat.add_mul]
  unfold Nat.dist
  split_ifs with hlo hhi
  · omega
  · omega
  · -- halfway, both neighbours are as near
    rcases Nat.mod_two_eq_zero_or_one (n / d) with h | h <;> rw [h] <;> omega

namespace BinaryFormat

variable (f : BinaryFormat)

/-- The exponent at which a quotient is rounded. -/
def shift (n d : Nat) : Nat := (n * f.one / d).log2 - f.fractionBits

/-- The mantissa of a quotient, rounded at its exponent. -/
def mantissa (n d : Nat) : Nat := roundHalfEven (n * f.one) (d * 2 ^ f.shift n d)

theorem nearest_eq_min (n d : Nat) :
    f.nearest n d = min (f.shift n d * f.binade + f.mantissa n d) f.infinity := by
  rw [mantissa, ← Nat.shiftLeft_eq]
  rfl

theorem binade_eq_pow : f.binade = 2 ^ f.fractionBits := Nat.one_shiftLeft _

variable {f} {n d n' d' : Nat}

/-- Above the least exponent the quotient fills the mantissa. -/
theorem binade_le_of_shift_pos (h : 0 < f.shift n d) : f.binade * 2 ^ f.shift n d ≤ n * f.one / d := by
  rw [shift] at *
  generalize n * f.one / d = q at *
  have hlog : q.log2 = f.fractionBits + (q.log2 - f.fractionBits) := by omega
  have hq : q ≠ 0 := by
    rintro rfl
    rw [Nat.log2_zero] at h
    omega
  rw [binade_eq_pow, ← pow_add, ← hlog]
  exact Nat.log2_self_le hq

/-- The mantissa has at most one bit more than the format, and above the least exponent no fewer. -/
theorem mantissa_bounds : f.mantissa n d ≤ 2 * f.binade ∧
    (0 < f.shift n d → f.binade ≤ f.mantissa n d) := by
  obtain ⟨hlo, hhi⟩ := Binary64.le_roundHalfEven (n * f.one) (d * 2 ^ f.shift n d)
  rw [← Nat.div_div_eq_div_mul] at hlo hhi
  rw [mantissa]
  constructor
  · have hlt : n * f.one / d / 2 ^ f.shift n d < 2 * f.binade := by
      rw [Nat.div_lt_iff_lt_mul (Nat.two_pow_pos _), binade_eq_pow, ← pow_succ', ← pow_add]
      refine Nat.lt_log2_self.trans_le (Nat.pow_le_pow_right Nat.two_pos ?_)
      rw [shift]
      omega
    omega
  · intro h
    refine le_trans ?_ hlo
    rw [Nat.le_div_iff_mul_le (Nat.two_pow_pos _)]
    exact binade_le_of_shift_pos h

theorem units_of_mantissa {s m : Nat} (hle : m ≤ 2 * f.binade) (hnormal : 0 < s → f.binade ≤ m) :
    f.units (s * f.binade + m) = m * 2 ^ s := by
  have hpos := f.binade_pos
  rw [units]
  by_cases hlow : m < f.binade
  · have hs : s = 0 := by
      by_contra h
      have := hnormal (Nat.pos_of_ne_zero h)
      omega
    rw [hs, zero_mul, zero_add, if_pos hlow, pow_zero, mul_one]
  · have hnot : ¬ s * f.binade + m < f.binade := by omega
    rw [if_neg hnot, Nat.shiftLeft_eq, add_comm (s * f.binade), Nat.add_mul_mod_self_right,
      Nat.add_mul_div_right _ _ hpos]
    rcases hle.lt_or_eq with hlt | rfl
    · have hdiv : m / f.binade = 1 := Nat.div_eq_of_lt_le (by omega) (by omega)
      have hmod : f.binade + m % f.binade = m := by
        have := Nat.div_add_mod m f.binade
        rw [hdiv] at this
        omega
      rw [hdiv, hmod, Nat.add_sub_cancel_left]
    · rw [Nat.mul_mod_left, Nat.mul_div_cancel _ hpos, show 2 + s - 1 = s + 1 by omega, pow_succ']
      ring

theorem units_nearest (hfinite : f.nearest n d < f.infinity) :
    f.units (f.nearest n d) = f.mantissa n d * 2 ^ f.shift n d := by
  obtain ⟨hle, hnormal⟩ := f.mantissa_bounds (n := n) (d := d)
  rw [nearest_eq_min] at hfinite ⊢
  rw [min_eq_left (by omega), units_of_mantissa hle hnormal]

theorem units_strictMono (f : BinaryFormat) : StrictMono f.units := by
  intro j k h
  have hpos := f.binade_pos
  obtain ⟨s, m, rfl, hj, hlt, hnormal⟩ := f.exists_units_eq j
  obtain ⟨t, l, rfl, hk, hlt', hnormal'⟩ := f.exists_units_eq k
  have hle : s ≤ t := by
    by_contra hts
    have hstep : (t + 1) * f.binade ≤ s * f.binade := Nat.mul_le_mul_right _ (by omega)
    have hm := hnormal (by omega)
    rw [Nat.succ_mul] at hstep
    omega
  rw [hj, hk]
  rcases hle.lt_or_eq with hst | rfl
  · calc m * 2 ^ s < 2 * f.binade * 2 ^ s := Nat.mul_lt_mul_of_pos_right hlt (Nat.two_pow_pos s)
      _ = f.binade * 2 ^ (s + 1) := by ring
      _ ≤ f.binade * 2 ^ t := Nat.mul_le_mul_left _ (Nat.pow_le_pow_right Nat.two_pos hst)
      _ ≤ l * 2 ^ t := Nat.mul_le_mul_right _ (hnormal' (by omega))
  · exact Nat.mul_lt_mul_of_pos_right (by omega) (Nat.two_pow_pos s)

theorem shift_mono (h : n ≤ n') : f.shift n d ≤ f.shift n' d := by
  have hle : n * f.one / d ≤ n' * f.one / d := Nat.div_le_div_right (Nat.mul_le_mul_right _ h)
  have hlog : (n * f.one / d).log2 ≤ (n' * f.one / d).log2 := by
    rw [Nat.log2_eq_log_two, Nat.log2_eq_log_two]
    exact Nat.log_mono_right hle
  rw [shift, shift]
  omega

/-- A larger quotient has no smaller magnitude. -/
theorem nearest_mono (hd : 0 < d) (hd' : 0 < d') (h : n * d' ≤ n' * d) :
    f.nearest n d ≤ f.nearest n' d' := by
  rw [← f.nearest_mul n d hd', ← f.nearest_mul n' d' hd, mul_comm d' d]
  generalize n * d' = a, n' * d = b, d * d' = c at *
  rw [nearest_eq_min, nearest_eq_min]
  refine min_le_min_right _ ?_
  have hshift : f.shift a c ≤ f.shift b c := shift_mono h
  rcases hshift.lt_or_eq with hlt | heq
  · -- a larger exponent leaves room for the carry
    have hle := (f.mantissa_bounds (n := a) (d := c)).1
    have hnormal := (f.mantissa_bounds (n := b) (d := c)).2 (by omega)
    have hstep : (f.shift a c + 1) * f.binade ≤ f.shift b c * f.binade := Nat.mul_le_mul_right _ hlt
    rw [Nat.succ_mul] at hstep
    omega
  · rw [mantissa, mantissa, heq]
    exact Nat.add_le_add_left (roundHalfEven_mono _ (Nat.mul_le_mul_right _ h)) _

/-- No magnitude is nearer than the nearest. -/
theorem dist_nearest_le (hd : 0 < d) (hfinite : f.nearest n d < f.infinity) (k : Nat) :
    Nat.dist (n * f.one) (f.units (f.nearest n d) * d) ≤ Nat.dist (n * f.one) (f.units k * d) := by
  obtain ⟨s, m, -, hunits, hlt, -⟩ := f.exists_units_eq k
  have hpos : 0 < d * 2 ^ f.shift n d := Nat.mul_pos hd (Nat.two_pow_pos _)
  have hnearest : f.units (f.nearest n d) * d = f.mantissa n d * (d * 2 ^ f.shift n d) := by
    rw [units_nearest hfinite]
    ring
  rw [hnearest]
  rcases Nat.lt_or_ge s (f.shift n d) with hs | hs
  · -- at a smaller exponent all values are below the least mantissa
    have hbelow : f.units k * d ≤ f.binade * (d * 2 ^ f.shift n d) := by
      calc f.units k * d ≤ 2 * f.binade * 2 ^ s * d := by
            rw [hunits]
            exact Nat.mul_le_mul_right _ (Nat.mul_le_mul_right _ hlt.le)
        _ = f.binade * (d * 2 ^ (s + 1)) := by ring
        _ ≤ f.binade * (d * 2 ^ f.shift n d) :=
          Nat.mul_le_mul_left _ (Nat.mul_le_mul_left _ (Nat.pow_le_pow_right Nat.two_pos hs))
    have habove : f.binade * (d * 2 ^ f.shift n d) ≤ n * f.one := by
      have h := (Nat.le_div_iff_mul_le hd).1 (binade_le_of_shift_pos (Nat.zero_lt_of_lt hs))
      rwa [mul_comm d, ← mul_assoc]
    have hround := dist_roundHalfEven_le (n := n * f.one) hpos f.binade
    rw [mantissa]
    unfold Nat.dist at *
    omega
  · obtain ⟨c, rfl⟩ := Nat.exists_eq_add_of_le hs
    have hgrid : f.units k * d = m * 2 ^ c * (d * 2 ^ f.shift n d) := by
      rw [hunits]
      ring
    rw [hgrid]
    exact dist_roundHalfEven_le hpos _

end BinaryFormat

/-! ## Rounded quotients -/

namespace Binary64

theorem nearest_le_infinity (n d : Nat) : binary64.nearest n d ≤ binary64.infinity :=
  (binary64.nearest_eq_min n d).trans_le (min_le_right _ _)

section

variable (negative : Bool) (n d : Nat)

@[simp]
theorem magnitude_ofRatio : magnitude (ofRatio negative n d) = binary64.nearest n d :=
  magnitude_ofMagnitude negative (nearest_le_infinity n d)

@[simp]
theorem isNegative_ofRatio : isNegative (ofRatio negative n d) = negative :=
  isNegative_ofMagnitude negative (nearest_le_infinity n d)

theorem isFinite_ofRatio :
    (ofRatio negative n d).isFinite = true ↔ binary64.nearest n d < binary64.infinity := by
  rw [isFinite_iff, magnitude_ofRatio]

end

theorem cast_dist (a b : Nat) : (Nat.dist a b : ℚ) = |(a : ℚ) - b| := by
  have h : Nat.dist a b = ((a : Int) - b).natAbs := by
    unfold Nat.dist
    omega
  rw [h, Nat.cast_natAbs]
  push_cast
  rfl

theorem withSign_sub (negative : Bool) (a b : Nat) :
    |(withSign negative a : ℚ) - withSign negative b| = |(a : ℚ) - b| := by
  cases negative
  · simp [withSign]
  · rw [withSign, withSign, if_pos rfl, if_pos rfl, ← abs_neg]
    push_cast
    ring_nf

/-! ## Integers -/

/-- **The double of an integer is the nearest one.** -/
theorem abs_sub_ofInt_le {i : Int} (h : (ofInt i).isFinite = true) (y : Float) :
    |(i : ℚ) - toRat (ofInt i)| ≤ |(i : ℚ) - toRat y| := by
  have hone : (0 : ℚ) < binary64.one := Nat.cast_pos.2 (one_pos _)
  have hfinite : binary64.nearest i.natAbs 1 < binary64.infinity := (isFinite_ofRatio _ _ _).1 h
  have hi : (i : ℚ) = withSign (decide (i < 0)) (i.natAbs * binary64.one) / binary64.one := by
    rw [withSign_natAbs_mul, eq_div_iff hone.ne']
    push_cast
    rfl
  have habs : |(i : ℚ)| = (i.natAbs * binary64.one : Nat) / binary64.one := by
    rw [hi, abs_div, abs_of_pos hone, ← Int.cast_abs, abs_withSign, Int.cast_natCast]
  have habs' : |toRat y| = units y / binary64.one := by
    rw [toRat, abs_div, abs_of_pos hone, ← Int.cast_abs, abs_withSign, Int.cast_natCast]
  have hdist := BinaryFormat.dist_nearest_le Nat.one_pos hfinite (magnitude y)
  rw [mul_one, mul_one, ← magnitude_ofRatio (decide (i < 0))] at hdist
  calc |(i : ℚ) - toRat (ofInt i)|
      = Nat.dist (i.natAbs * binary64.one) (units (ofInt i)) / binary64.one := by
        rw [toRat, show isNegative (ofInt i) = decide (i < 0) from isNegative_ofRatio _ _ _]
        nth_rewrite 1 [hi]
        rw [← sub_div, abs_div, withSign_sub, cast_dist, abs_of_pos hone]
    _ ≤ Nat.dist (i.natAbs * binary64.one) (units y) / binary64.one := by
        exact div_le_div_of_nonneg_right (Nat.cast_le.2 hdist) hone.le
    _ = |(|(i : ℚ)| - |toRat y|)| := by
        rw [habs, habs', ← sub_div, abs_div, cast_dist, abs_of_pos hone]
    _ ≤ |(i : ℚ) - toRat y| := abs_abs_sub_abs_le _ _

end Binary64

end SkillBoard
