import SkillBoard.Chart
import SkillBoard.Cohort.Export
import SkillBoard.Proofs.Binary.Ceiling
import SkillBoard.Proofs.Source.Loading

/-!
# The outer ring of the radar

The radius is the largest value rounded up to a multiple of twenty: a twentieth of it is rounded, then the least
integer that is not below is taken, and twenty times that is rounded again (`Radar.roundedUp_eq`).

* It is finite, for the largest double is rounded down (`Radar.isFinite_roundedUp`).
* It can only be too small if the twentieth has been rounded down to an integer. Then the product is just below
  the value, and it is rounded back (`Radar.le_roundedUp_or`) unless it is halfway to the double before and that
  one is even (`Radar.roundedUp_lt`). `Radar.FallsShort` says for which values this is so.
-/

namespace SkillBoard

open Binary64 (magnitude units isNegative rank)

namespace Radar

/-- The value rounded up to a multiple of twenty, as the ring is. -/
def roundedUp (x : Float) : Float := Binary64.ceil (x / 20) * 20

/-- How many twenties the value is rounded up to. -/
def twenties (x : Float) : Nat := units (x / 20) ⌈/⌉ binary64.one

/-- The value is `m * 2 ^ e` with an odd mantissa, of which four fifths are rounded down by two fifths, and with
an exponent at which the rounded twentieth of the value is whole. -/
def FallsShort (x : Float) : Prop := ∃ m e, 3 ≤ e ∧ 5 * 2 ^ 50 ≤ m ∧ m < 2 ^ 53 ∧ m % 10 = 3 ∧
  units x = m * 2 ^ e * binary64.one

section

variable {x y : Float}

theorem twenty : (20 : Float).isFinite = true ∧ isNegative 20 = false ∧ units 20 = 20 * binary64.one := by
  decide

theorem quotient_eq (hx : x.isFinite = true) :
    x / 20 = Binary64.ofRatio (isNegative x) (units x) (20 * binary64.one) := by
  obtain ⟨hfinite, hsign, hunits⟩ := twenty
  rw [Binary64.div_eq hx hfinite (by decide), hsign, Bool.xor_false, hunits]

theorem isFinite_quotient (hx : x.isFinite = true) : (x / 20).isFinite = true := by
  obtain ⟨hfinite, -, hunits⟩ := twenty
  rw [Binary64.isFinite_iff] at hx ⊢
  refine (Binary64.magnitude_div_le ((Binary64.isFinite_iff x).2 hx) hfinite ?_).trans_lt hx
  rw [hunits]
  exact Nat.le_mul_of_pos_left _ (by omega)

theorem le_twenties (x : Float) : units (x / 20) ≤ twenties x * binary64.one := by
  rw [mul_comm]
  exact le_smul_ceilDiv (Binary64.one_pos _)

/-- Only the product is rounded, for the number of twenties is a double. -/
theorem roundedUp_eq (hx : x.isFinite = true) (hsign : isNegative x = false) :
    roundedUp x = Binary64.ofRatio false (20 * twenties x) 1 := by
  obtain ⟨hfinite, hpositive, hunits⟩ := twenty
  have hquotient : isNegative (x / 20) = false := by
    rw [quotient_eq hx, Binary64.isNegative_ofRatio, hsign]
  obtain ⟨hceil, hcount⟩ := Binary64.units_ceil (isFinite_quotient hx) hquotient
  have hceilSign : isNegative (Binary64.ceil (x / 20)) = false := by
    rw [Binary64.ceil_eq (isFinite_quotient hx) hquotient, Binary64.isNegative_ofNat]
  have hone := Binary64.one_pos binary64
  rw [roundedUp, Binary64.mul_eq hceil hfinite, hceilSign, hpositive, hcount, hunits, ← twenties]
  refine Binary64.ofRatio_congr (Nat.mul_pos hone hone) Nat.one_pos ?_
  ring

theorem twenties_mono (hx : x.isFinite = true) (hy : y.isFinite = true) (h : magnitude x ≤ magnitude y) :
    twenties x ≤ twenties y := by
  have htwenty : 0 < 20 * binary64.one := Nat.mul_pos (by omega) (Binary64.one_pos _)
  have hle : magnitude (x / 20) ≤ magnitude (y / 20) := by
    rw [quotient_eq hx, quotient_eq hy, Binary64.magnitude_ofRatio, Binary64.magnitude_ofRatio]
    refine BinaryFormat.nearest_mono htwenty htwenty (Nat.mul_le_mul_right _ ?_)
    exact binary64.units_strictMono.monotone h
  rw [twenties, ceilDiv_le_iff_le_mul (Binary64.one_pos _), mul_comm]
  exact (binary64.units_strictMono.monotone hle).trans (le_twenties y)

/-- The largest value there is is rounded down. -/
theorem isFinite_roundedUp (hx : x.isFinite = true) (hsign : isNegative x = false) :
    (roundedUp x).isFinite = true := by
  obtain ⟨top, htop⟩ : ∃ top, top = Binary64.ofMagnitude false (binary64.infinity - 1) := ⟨_, rfl⟩
  have hlast : magnitude top = binary64.infinity - 1 ∧ top.isFinite = true ∧ isNegative top = false ∧
      (roundedUp top).isFinite = true := by
    rw [htop]
    decide +kernel
  obtain ⟨hmagnitude, hfinite, htopsign, hrounded⟩ := hlast
  have hlt := (Binary64.isFinite_iff x).1 hx
  have hle := twenties_mono hx hfinite (by omega)
  rw [roundedUp_eq hfinite htopsign, Binary64.isFinite_ofRatio] at hrounded
  rw [roundedUp_eq hx hsign, Binary64.isFinite_ofRatio]
  refine lt_of_le_of_lt (BinaryFormat.nearest_mono Nat.one_pos Nat.one_pos ?_) hrounded
  omega

/-- If the twenties reach the value, they do so when they are rounded. -/
theorem le_roundedUp (hx : x.isFinite = true) (hsign : isNegative x = false)
    (h : units x ≤ 20 * twenties x * binary64.one) : magnitude x ≤ magnitude (roundedUp x) := by
  rw [roundedUp_eq hx hsign, Binary64.magnitude_ofRatio, ← Binary64.nearest_units_self hx]
  exact BinaryFormat.nearest_mono (Binary64.one_pos _) Nat.one_pos (by rwa [mul_one])

/-- If they do not, the quotient has been rounded down, and to a whole number. -/
theorem units_quotient_of_lt (hx : x.isFinite = true)
    (h : 20 * twenties x * binary64.one < units x) : units (x / 20) = twenties x * binary64.one := by
  obtain ⟨k, hk, hunits⟩ := Binary64.exists_units_ceil (isFinite_quotient hx)
  have hself : binary64.nearest (twenties x) 1 = k :=
    binary64.nearest_units Nat.one_pos hk.le (by rw [mul_one]; exact hunits.symm)
  have hle : k ≤ magnitude (x / 20) := by
    rw [quotient_eq hx, Binary64.magnitude_ofRatio, ← hself]
    refine BinaryFormat.nearest_mono Nat.one_pos (Nat.mul_pos (by omega) (Binary64.one_pos _)) ?_
    rw [mul_one, ← mul_assoc, mul_comm _ 20]
    exact h.le
  exact (le_twenties x).antisymm (hunits.symm.trans_le (binary64.units_strictMono.monotone hle))

variable {m s j : Nat}

/-- A twentieth of a mantissa is a fifth of it, two bits further down. -/
theorem units_quotient (hx : x.isFinite = true) (hunits : units x = m * 2 ^ (s + j + 2))
    (hlo : 2 ^ 52 * 5 ≤ 2 ^ j * m) (hhi : 2 ^ j * m < 2 ^ 53 * 5) :
    units (x / 20) = roundHalfEven (2 ^ j * m) 5 * 2 ^ s := by
  have htwenty : 0 < 20 * binary64.one := Nat.mul_pos (by omega) (Binary64.one_pos _)
  have hfinite := (Binary64.isFinite_iff _).1 (isFinite_quotient hx)
  have hnearest : binary64.nearest (units x) (20 * binary64.one) =
      min (s * 2 ^ 52 + roundHalfEven (2 ^ j * m) 5) binary64.infinity := by
    refine Binary64.nearest_scaled htwenty (by omega) hlo hhi ?_
    rw [hunits, pow_add, pow_add]
    ring
  rw [quotient_eq hx, Binary64.magnitude_ofRatio, hnearest] at hfinite
  rw [quotient_eq hx, units, Binary64.magnitude_ofRatio, hnearest, min_eq_left (by omega),
    ← Binary64.binade_eq]
  have hbounds := Binary64.le_roundHalfEven (2 ^ j * m) 5
  have hbinade := Binary64.binade_eq
  exact BinaryFormat.units_of_mantissa (by omega) fun _ => by omega

theorem magnitude_roundedUp (hx : x.isFinite = true) (hsign : isNegative x = false) {q : Nat}
    (hunits : twenties x * binary64.one = q * 2 ^ s) (hlo : 2 ^ 52 * 2 ^ j ≤ 5 * q)
    (hhi : 5 * q < 2 ^ 53 * 2 ^ j) :
    magnitude (roundedUp x) =
      min ((s + j + 2) * 2 ^ 52 + roundHalfEven (5 * q) (2 ^ j)) binary64.infinity := by
  rw [roundedUp_eq hx hsign, Binary64.magnitude_ofRatio]
  refine Binary64.nearest_scaled Nat.one_pos (by positivity) hlo hhi ?_
  calc 20 * twenties x * (2 ^ j * binary64.one) = 20 * 2 ^ j * (twenties x * binary64.one) := by ring
    _ = 5 * q * 2 ^ (s + j + 2) * 1 := by
      rw [hunits]
      ring

/-- Values above twenty have 53 bits. -/
theorem exists_parts (h : 20 * binary64.one < units x) : ∃ m s, 2 ^ 52 ≤ m ∧ m < 2 ^ 53 ∧
    units x = m * 2 ^ (s + 3 + 2) := by
  have hstep : binary64.stepExponent = 1074 := rfl
  obtain ⟨s, m, -, hunits, hlt, hnormal⟩ := binary64.exists_units_eq (magnitude x)
  rw [← units, Binary64.binade_eq, ← pow_succ'] at *
  have hs : 5 ≤ s := by
    by_contra hs
    have hsmall : units x ≤ 2 ^ 4 * binary64.one := by
      calc units x ≤ 2 ^ 53 * 2 ^ s := hunits.trans_le (Nat.mul_le_mul_right _ hlt.le)
        _ ≤ 2 ^ (4 + binary64.stepExponent) := by
          rw [← pow_add]
          exact Nat.pow_le_pow_right Nat.two_pos (by omega)
        _ = 2 ^ 4 * binary64.one := by rw [pow_add, Binary64.one_eq]
    omega
  obtain ⟨t, rfl⟩ := Nat.exists_eq_add_of_le' hs
  exact ⟨m, t, hnormal (by omega), hlt, hunits⟩

/-- The twenties do not reach the value if the fifth of the mantissa has been rounded down. -/
theorem five_mul_lt {q : Nat} (hunits : units x = m * 2 ^ (s + j + 2))
    (hquotient : twenties x * binary64.one = q * 2 ^ s) (h : 20 * twenties x * binary64.one < units x) :
    5 * q < 2 ^ j * m := by
  have hscaled : 5 * q * (4 * 2 ^ s) < 2 ^ j * m * (4 * 2 ^ s) := by
    calc 5 * q * (4 * 2 ^ s) = 20 * (q * 2 ^ s) := by ring
      _ < units x := by rwa [← hquotient, ← mul_assoc]
      _ = 2 ^ j * m * (4 * 2 ^ s) := by
        rw [hunits, pow_add, pow_add]
        ring
  exact Nat.lt_of_mul_lt_mul_right hscaled

/-- A mantissa that is twice an odd number is only whole from the second place on. -/
theorem fallsShort_of_whole {q : Nat} (hunits : units x = m * 2 ^ (s + 2 + 2)) (hlo : 5 * 2 ^ 50 ≤ m)
    (hhi : m < 2 ^ 53) (hm : m % 10 = 3) (hq : q % 4 = 2)
    (hquotient : twenties x * binary64.one = q * 2 ^ s) : FallsShort x := by
  have hstep : binary64.stepExponent = 1074 := rfl
  have hs : 1073 ≤ s := by
    by_contra hs
    obtain ⟨t, ht⟩ : ∃ t, binary64.stepExponent = 2 + t + s := ⟨1072 - s, by omega⟩
    have hfour : 4 * (twenties x * 2 ^ t) * 2 ^ s = q * 2 ^ s := by
      rw [← hquotient, Binary64.one_eq, ht, pow_add, pow_add]
      ring
    have := Nat.eq_of_mul_eq_mul_right (Nat.two_pow_pos s) hfour
    omega
  obtain ⟨e, rfl⟩ := Nat.exists_eq_add_of_le hs
  refine ⟨m, e + 3, by omega, hlo, hhi, hm, ?_⟩
  rw [hunits, Binary64.one_eq, mul_assoc, ← pow_add]
  congr 2
  omega

/-- If the product is rounded back to the mantissa, it is the value. -/
theorem le_roundedUp_of_back (hx : x.isFinite = true) (hsign : isNegative x = false) {q : Nat}
    (hlo : 2 ^ 52 ≤ m) (hhi : m < 2 ^ 53) (hunits : units x = m * 2 ^ (s + j + 2))
    (hquotient : twenties x * binary64.one = q * 2 ^ s) (hqlo : 2 ^ 52 * 2 ^ j ≤ 5 * q)
    (hqhi : 5 * q < 2 ^ 53 * 2 ^ j) (hback : roundHalfEven (5 * q) (2 ^ j) = m) :
    magnitude x ≤ magnitude (roundedUp x) := by
  have hfinite := (Binary64.isFinite_iff x).1 hx
  rw [Binary64.magnitude_of_units hlo hhi hunits] at hfinite ⊢
  rw [magnitude_roundedUp hx hsign hquotient hqlo hqhi, hback]
  exact le_min le_rfl hfinite.le

/-- Rounded up, a value is not made smaller, but for those that fall short. -/
theorem le_roundedUp_or (hx : x.isFinite = true) (hsign : isNegative x = false)
    (h20 : 20 * binary64.one < units x) : magnitude x ≤ magnitude (roundedUp x) ∨ FallsShort x := by
  rcases Nat.lt_or_ge (20 * twenties x * binary64.one) (units x) with h | h
  · have hwhole := units_quotient_of_lt hx h
    obtain ⟨m, s, hlo, hhi, hunits⟩ := exists_parts h20
    rcases Nat.lt_or_ge m (5 * 2 ^ 50) with hm | hm
    · -- the mantissa loses at most two eighths, and they are put back
      obtain ⟨q, hq⟩ : ∃ q, q = roundHalfEven (2 ^ 3 * m) 5 := ⟨_, rfl⟩
      have hquotient := units_quotient (j := 3) hx hunits (by omega) (by omega)
      rw [hwhole, ← hq] at hquotient
      have hlt := five_mul_lt hunits hquotient h
      rw [roundHalfEven_eq_add] at hq
      have hclose : 2 ^ 3 * m ≤ 5 * q + 2 ∧ 2 ^ 52 * 2 ^ 3 ≤ 5 * q := by
        split_ifs at hq <;> omega
      have hback : roundHalfEven (5 * q) (2 ^ 3) = m := by
        rw [roundHalfEven_eq_add]
        split_ifs <;> omega
      exact .inl (le_roundedUp_of_back hx hsign hlo hhi hunits hquotient hclose.2 (by omega) hback)
    · obtain ⟨q, hq⟩ : ∃ q, q = roundHalfEven (2 ^ 2 * m) 5 := ⟨_, rfl⟩
      have hunits : units x = m * 2 ^ (s + 1 + 2 + 2) := hunits
      generalize s + 1 = t at hunits
      have hquotient := units_quotient hx hunits (by omega) (by omega)
      rw [hwhole, ← hq] at hquotient
      have hlt := five_mul_lt hunits hquotient h
      rw [roundHalfEven_eq_add] at hq
      have hclose : 2 ^ 2 * m ≤ 5 * q + 2 ∧ 2 ^ 52 * 2 ^ 2 ≤ 5 * q := by
        split_ifs at hq <;> omega
      by_cases hhalf : m % 10 = 3
      · exact .inr (fallsShort_of_whole hunits hm hhi hhalf (by omega) hquotient)
      · -- what is not halfway, or halfway to an odd mantissa, is put back
        have hback : roundHalfEven (5 * q) (2 ^ 2) = m := by
          rw [roundHalfEven_eq_add]
          split_ifs <;> omega
        exact .inl (le_roundedUp_of_back hx hsign hlo hhi hunits hquotient hclose.2 (by omega) hback)
  · exact .inl (le_roundedUp hx hsign h)

theorem roundedUp_lt (hx : x.isFinite = true) (hsign : isNegative x = false) (h : FallsShort x) :
    magnitude (roundedUp x) < magnitude x := by
  have hstep : binary64.stepExponent = 1074 := rfl
  obtain ⟨m, e, he, hlo, hhi, hm, hunits⟩ := h
  obtain ⟨t, rfl⟩ := Nat.exists_eq_add_of_le' he
  obtain ⟨s, hs⟩ : ∃ s, s + 1 = t + binary64.stepExponent := ⟨t + 1073, by omega⟩
  have hunits : units x = m * 2 ^ (s + 2 + 2) := by
    have hexponent : s + 2 + 2 = t + 3 + binary64.stepExponent := by omega
    rw [hunits, hexponent, pow_add _ (t + 3), ← Binary64.one_eq, mul_assoc]
  -- the fifth of the mantissa is even, so it is whole one place further down
  obtain ⟨c, hc⟩ : ∃ c, roundHalfEven (2 ^ 2 * m) 5 = c * 2 := by
    refine ⟨roundHalfEven (2 ^ 2 * m) 5 / 2, ?_⟩
    rw [roundHalfEven_eq_add]
    split_ifs <;> omega
  have hquotient := units_quotient hx hunits (by omega) (by omega)
  have hwhole : twenties x = c * 2 ^ t := by
    rw [twenties, hquotient, hc, mul_assoc, ← pow_succ', hs, pow_add, ← mul_assoc, ← Binary64.one_eq,
      Binary64.mul_ceilDiv _ (Binary64.one_pos _)]
  have hcount : twenties x * binary64.one = c * 2 * 2 ^ s := by
    rw [hwhole, Binary64.one_eq, mul_assoc, ← pow_add, ← hs, pow_succ', ← mul_assoc]
  have hlost : 5 * (c * 2) + 2 = 2 ^ 2 * m := by
    rw [← hc, roundHalfEven_eq_add]
    split_ifs <;> omega
  have hback : roundHalfEven (5 * (c * 2)) (2 ^ 2) = m - 1 := by
    rw [roundHalfEven_eq_add]
    split_ifs <;> omega
  rw [magnitude_roundedUp (j := 2) hx hsign hcount (by omega) (by omega), hback,
    Binary64.magnitude_of_units (by omega) hhi hunits]
  exact lt_of_le_of_lt (min_le_left _ _) (by omega)

/-- The first values that fall short are above `5 * 2 ^ 53`. -/
theorem le_units_of_fallsShort (h : FallsShort x) : 5 * 2 ^ 53 * binary64.one ≤ units x := by
  obtain ⟨m, e, he, hlo, -, -, hunits⟩ := h
  rw [hunits]
  refine Nat.mul_le_mul_right _ ?_
  calc 5 * 2 ^ 53 = 5 * 2 ^ 50 * 2 ^ 3 := by norm_num
    _ ≤ m * 2 ^ e := Nat.mul_le_mul hlo (Nat.pow_le_pow_right Nat.two_pos he)

theorem not_fallsShort_of_lt (hsign : isNegative x = false) (h : x < 45035996273704960) :
    ¬ FallsShort x := by
  intro hshort
  have hbound : isNegative 45035996273704960 = false ∧
      units 45035996273704960 = 5 * 2 ^ 53 * binary64.one := by
    decide
  obtain ⟨hx, hnan⟩ := Binary64.not_isNaN_of_lt h
  rw [Binary64.lt_iff_rank_lt hx hnan, Binary64.rank_of_not_isNegative hsign,
    Binary64.rank_of_not_isNegative hbound.1, Int.ofNat_lt] at h
  have hlt : units x < 5 * 2 ^ 53 * binary64.one := (binary64.units_strictMono h).trans_eq hbound.2
  exact hlt.not_ge (le_units_of_fallsShort hshort)

theorem le_max_roundedUp_iff (hx : x.isFinite = true) (hsign : isNegative x = false) :
    x ≤ Binary64.max (roundedUp x) 20 ↔ ¬ FallsShort x := by
  obtain ⟨htwenty, hpositive, hunits⟩ := twenty
  have hrounded := isFinite_roundedUp hx hsign
  have hroundedSign : isNegative (roundedUp x) = false := by
    rw [roundedUp_eq hx hsign, Binary64.isNegative_ofRatio]
  have hmax := Binary64.not_isNaN_of_isFinite (Binary64.isFinite_max hrounded htwenty)
  have hiff : x ≤ Binary64.max (roundedUp x) 20 ↔
      magnitude x ≤ magnitude (roundedUp x) ∨ magnitude x ≤ magnitude 20 := by
    rw [Binary64.le_iff_rank_le (Binary64.not_isNaN_of_isFinite hx) hmax,
      Binary64.rank_max (Binary64.not_isNaN_of_isFinite hrounded) (Binary64.not_isNaN_of_isFinite htwenty),
      Binary64.rank_of_not_isNegative hsign, Binary64.rank_of_not_isNegative hroundedSign,
      Binary64.rank_of_not_isNegative hpositive]
    omega
  rw [hiff]
  rcases Nat.lt_or_ge (20 * binary64.one) (units x) with h | h
  · have hlarge : magnitude 20 < magnitude x := by
      rw [← binary64.units_strictMono.lt_iff_lt]
      exact hunits.trans_lt h
    refine ⟨fun hle hshort => ?_, fun hshort => .inl ((le_roundedUp_or hx hsign h).resolve_right hshort)⟩
    have hlt := roundedUp_lt hx hsign hshort
    omega
  · have hsmall : magnitude x ≤ magnitude 20 := by
      rw [← binary64.units_strictMono.le_iff_le]
      exact h.trans_eq hunits.symm
    refine iff_of_true (.inr hsmall) fun hshort => ?_
    have hle := (le_units_of_fallsShort hshort).trans h
    exact absurd (Nat.le_of_mul_le_mul_right hle (Binary64.one_pos _)) (by omega)

end

end Radar

/-- All values of a chart. -/
def Chart.plotted (c : Chart) : List Float := c.series.flatMap (·.values)

/-- The largest value of a chart, or zero if none is larger. -/
def Chart.largest (c : Chart) : Float := c.plotted.foldl Binary64.max 0

theorem radarScale_eq (c : Chart) : radarScale c = Binary64.max (Radar.roundedUp c.largest) 20 := rfl

theorem largest_mem {c : Chart} (h : ∀ v ∈ c.plotted, v.isFinite = true) :
    c.largest.isFinite = true ∧ isNegative c.largest = false ∧ (∀ v ∈ c.plotted, v ≤ c.largest) ∧
      c.largest ∈ 0 :: c.plotted := by
  have hall : ∀ v ∈ 0 :: c.plotted, v.isFinite = true := List.forall_mem_cons.2 ⟨rfl, h⟩
  have hnumbers : ∀ v ∈ 0 :: c.plotted, v.isNaN = false :=
    fun v hv => Binary64.not_isNaN_of_isFinite (hall v hv)
  have hmem : c.largest ∈ 0 :: c.plotted := Binary64.foldl_max_mem 0 c.plotted
  refine ⟨hall _ hmem, Binary64.isNegative_foldl_max rfl hnumbers, fun v hv => ?_, hmem⟩
  rw [Binary64.le_iff_rank_le (hnumbers v (List.mem_cons_of_mem _ hv)) (hnumbers _ hmem)]
  exact Binary64.rank_le_foldl_max hnumbers v (List.mem_cons_of_mem _ hv)

theorem isFinite_radarScale {c : Chart} (h : ∀ v ∈ c.plotted, v.isFinite = true) :
    (radarScale c).isFinite = true := by
  obtain ⟨hfinite, hsign, -⟩ := largest_mem h
  exact Binary64.isFinite_max (Radar.isFinite_roundedUp hfinite hsign) Radar.twenty.1

theorem twenty_le_radarScale (c : Chart) : 20 ≤ radarScale c := by
  have htwenty : (20 : Float).isNaN = false := rfl
  rw [radarScale_eq]
  unfold Binary64.max
  split_ifs with h
  · exact Binary64.le_refl_of_not_isNaN htwenty
  · rw [Bool.or_eq_true, decide_eq_true_eq, not_or, Bool.not_eq_true] at h
    exact Binary64.le_of_not_lt h.2 htwenty h.1

theorem radarScale_encloses_iff {c : Chart} (h : ∀ v ∈ c.plotted, v.isFinite = true) :
    (∀ v ∈ c.plotted, v ≤ radarScale c) ↔ ¬ Radar.FallsShort c.largest := by
  obtain ⟨hfinite, hsign, hlargest, hmem⟩ := largest_mem h
  rw [← Radar.le_max_roundedUp_iff hfinite hsign, ← radarScale_eq]
  refine ⟨fun hall => ?_, fun hle v hv => Binary64.le_of_le_of_le (hlargest v hv) hle⟩
  rcases List.mem_cons.1 hmem with hzero | hv
  · rw [hzero]
    exact Binary64.le_of_le_of_le (by decide) (twenty_le_radarScale c)
  · exact hall _ hv

theorem forall_plotted_profileRadar {s : Student} {P : Float → Prop} :
    (∀ v ∈ (profileRadar s).plotted, P v) ↔ ∀ m, P (s.metric m) := by
  have hplotted : (profileRadar s).plotted = radarMetrics.map s.metric := List.append_nil _
  have hall (m : Metric) : m ∈ radarMetrics := by cases m <;> decide
  rw [hplotted, List.forall_mem_map]
  exact ⟨fun h m => h m (hall m), fun h m _ => h m⟩

/-- **The outer ring is finite and at least twenty, and it encloses the profile**, unless the largest value is
one of those that fall short when they are rounded up. None of them is below `5 * 2 ^ 53`. -/
theorem radarScale_profile (s : Student) (hfinite : ∀ m, (s.metric m).isFinite = true) :
    (radarScale (profileRadar s)).isFinite = true ∧ 20 ≤ radarScale (profileRadar s) ∧
      ((∀ m, s.metric m ≤ radarScale (profileRadar s)) ↔ ¬ Radar.FallsShort (profileRadar s).largest) ∧
      ((∀ m, s.metric m < 45035996273704960) → ∀ m, s.metric m ≤ radarScale (profileRadar s)) := by
  have hplotted : ∀ v ∈ (profileRadar s).plotted, v.isFinite = true :=
    forall_plotted_profileRadar.2 hfinite
  have hiff : (∀ m, s.metric m ≤ radarScale (profileRadar s)) ↔
      ¬ Radar.FallsShort (profileRadar s).largest :=
    forall_plotted_profileRadar.symm.trans (radarScale_encloses_iff hplotted)
  refine ⟨isFinite_radarScale hplotted, twenty_le_radarScale _, hiff, fun hsmall => hiff.2 ?_⟩
  obtain ⟨-, hsign, -, hmem⟩ := largest_mem hplotted
  refine Radar.not_fallsShort_of_lt hsign ?_
  rcases List.mem_cons.1 hmem with hzero | hv
  · rw [hzero]
    decide
  · exact (forall_plotted_profileRadar (P := (· < 45035996273704960))).2 hsmall _ hv

/-- A student with metrics of all sizes. -/
def wideProfile : Student := ⟨1, "Ada", 5, 81, -7.5, 1e9, 5e-324, 0.1, 1e15, 0⟩

theorem radarScale_profile_wideProfile : (∀ m, (wideProfile.metric m).isFinite = true) ∧
    (∀ m, wideProfile.metric m < 45035996273704960) ∧
    (radarScale (profileRadar wideProfile)).isFinite = true ∧
    ∀ m, wideProfile.metric m ≤ radarScale (profileRadar wideProfile) := by
  have hfinite : ∀ m, (wideProfile.metric m).isFinite = true := by
    intro m
    cases m <;> decide +kernel
  have hsmall : ∀ m, wideProfile.metric m < 45035996273704960 := by
    intro m
    cases m <;> decide +kernel
  obtain ⟨hring, -, -, hencloses⟩ := radarScale_profile wideProfile hfinite
  exact ⟨hfinite, hsmall, hring, hencloses hsmall⟩

/-- A student whose comprehension is `(5 * 2 ^ 50 + 3) * 2 ^ 3`. -/
def tallProfile : Student := ⟨1, "Ada", 5, 45035996273704984, 50, 60, 70, 80, 30, 0⟩

/-- It can be loaded, and its ring is rounded to the double before the value. -/
theorem radarScale_tallProfile :
    Loaded ⟨[tallProfile]⟩ ∧ (∀ m, (tallProfile.metric m).isFinite = true) ∧
      radarScale (profileRadar tallProfile) = 45035996273704976 ∧
      radarScale (profileRadar tallProfile) < tallProfile.comprehension := by
  have h : (Source.columns (Export.columns [tallProfile])).load .plain = .ok ⟨[tallProfile]⟩ := by
    decide +kernel
  refine ⟨.source h, fun m => ?_, by decide +kernel, by decide +kernel⟩
  cases m <;> decide +kernel

end SkillBoard
