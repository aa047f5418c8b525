import SkillBoard.Proofs.Binary.Opposite

/-!
# The size of results

* A sum of values of at most a power of two keeps within their number times that power: all multiples of the
  power up to the `2 ^ 53`rd are doubles. The next one is not, and it is rounded back, so from there on sums do
  not grow any more, however many values follow (`AtMost.add`).
* A mean is no larger than the values are (`bounded_div_ofNat`), and of the largest value none of a list is
  larger (`rank_le_foldl_max`).
* What is not finite stays so in sums and quotients (`isFinite_of_add`, `isFinite_of_div`).
* Products of larger factors are larger (`magnitude_mul_mono`). The root of a positive value is far above the
  smallest step (`le_units_sqrt`).
-/

namespace SkillBoard.Binary64

open Float.Model (UnpackedFloat)

/-- The size of the value is at most the integer `c`. -/
def AtMost (c : Nat) (x : Float) : Prop := units x ≤ c * binary64.one

/-- The integer is below the place where the values end. -/
def Fits (c : Nat) : Prop := c * binary64.one < binary64.units binary64.infinity

variable {b c m n s : Nat} {x y : Float}

theorem Fits.mono (h : Fits n) (hmn : m ≤ n) : Fits m := lt_of_le_of_lt (Nat.mul_le_mul_right _ hmn) h

theorem fits_two_pow_iff : Fits (2 ^ b) ↔ b < 1024 := by
  rw [Fits, ← units_two_pow, binary64.units_strictMono.lt_iff_lt, infinity_eq]
  omega

theorem fits_iff : Fits c ↔ c < 2 ^ 1024 := by
  have hinf : binary64.units binary64.infinity = 2 ^ 1024 * binary64.one := units_two_pow 1024
  rw [Fits, hinf, Nat.mul_lt_mul_right (one_pos _)]

theorem atMost_two_pow_iff : AtMost (2 ^ b) x ↔ Bounded b x := by
  rw [AtMost, Bounded, ← units_two_pow, units, binary64.units_strictMono.le_iff_le]

theorem atMost_of_zero (h : magnitude x = 0) : AtMost c x := by
  rw [AtMost, units, h]
  exact Nat.zero_le _

theorem AtMost.mono (h : AtMost m x) (hmn : m ≤ n) : AtMost n x :=
  le_trans h (Nat.mul_le_mul_right _ hmn)

/-- However many values of at most `2 ^ b` there are, their number times `2 ^ b` fits, as no more than `2 ^ 53`
of them count. -/
theorem fits_count (n : Nat) (hb : b ≤ 970) : Fits (min n (2 ^ 53) * 2 ^ b) := by
  have hmost : Fits (2 ^ 53 * 2 ^ b) := by
    rw [← pow_add, fits_two_pow_iff]
    omega
  exact hmost.mono (Nat.mul_le_mul_right _ (min_le_right _ _))

theorem AtMost.isFinite (h : AtMost c x) (hc : Fits c) : x.isFinite = true := by
  rw [isFinite_iff, ← binary64.units_strictMono.lt_iff_lt]
  exact lt_of_le_of_lt h hc

/-- Up to the `2 ^ 53`rd all multiples of a power of two are doubles. -/
theorem exists_units_multiple (hm : m ≤ 2 ^ 53) (h : Fits (m * 2 ^ s)) :
    ∃ k ≤ binary64.infinity, binary64.units k = m * 2 ^ s * binary64.one := by
  have hstep : binary64.stepExponent = 1074 := rfl
  have hmultiple {m s : Nat} (hm : m < 2 ^ 53) (hs : s ≤ 971) :
      ∃ k ≤ binary64.infinity, binary64.units k = m * 2 ^ s * binary64.one := by
    rw [one_eq, mul_assoc, ← pow_add]
    obtain ⟨k, hk, hunits⟩ := exists_units_eq_mul_pow hm (s := s + binary64.stepExponent) (by omega)
    exact ⟨k, hk.le, hunits⟩
  rcases Nat.le_total s 971 with hs | hs
  · rcases hm.lt_or_eq with hlt | rfl
    · exact hmultiple hlt hs
    · have hcarry : 2 ^ 53 * 2 ^ s = 2 ^ 52 * 2 ^ (s + 1) := by ring
      rw [← pow_add, fits_two_pow_iff] at h
      exact hcarry ▸ hmultiple (by norm_num) (by omega)
  · -- there is room in the mantissa for what the exponent has no room for
    obtain ⟨c, rfl⟩ := Nat.exists_eq_add_of_le hs
    have hmove : m * 2 ^ (971 + c) = m * 2 ^ c * 2 ^ 971 := by rw [Nat.add_comm, pow_add, mul_assoc]
    rw [hmove] at h ⊢
    refine hmultiple ?_ le_rfl
    by_contra hle
    have hfits := h.mono (Nat.mul_le_mul_right _ (not_lt.1 hle))
    rw [← pow_add, fits_two_pow_iff] at hfits
    omega

theorem atMost_ofRatio (negative : Bool) {d : Nat} (hd : 0 < d)
    (hc : ∃ k ≤ binary64.infinity, binary64.units k = c * binary64.one) (h : n ≤ c * d) :
    AtMost c (ofRatio negative n d) := by
  obtain ⟨k, hk, hunits⟩ := hc
  have hself : binary64.nearest c 1 = k := binary64.nearest_units Nat.one_pos hk (by rw [hunits, mul_one])
  rw [AtMost, units, magnitude_ofRatio, ← hunits, ← hself]
  exact binary64.units_strictMono.monotone
    (BinaryFormat.nearest_mono hd Nat.one_pos (by rwa [mul_one]))

/-- The multiple of a power of two behind the `2 ^ 53`rd is halfway to the next double, and that one is odd. -/
theorem nearest_succ_multiple (b : Nat) (hb : b ≤ 970) :
    binary64.nearest ((2 ^ 53 + 1) * 2 ^ b) 1 = (1023 + (53 + b)) * 2 ^ 52 := by
  have hstep : binary64.stepExponent = 1074 := rfl
  have hfraction : binary64.fractionBits = 52 := rfl
  have hround : roundHalfEven (2 ^ 53 + 1) 2 = 2 ^ 52 := rfl
  have hshift : binary64.shift ((2 ^ 53 + 1) * 2 ^ b) 1 = b + 1074 + 1 := by
    have hlog : (2 ^ 53 + 1).log2 = 53 := rfl
    rw [BinaryFormat.shift, Nat.div_one, one_eq, mul_assoc, ← pow_add, log2_mul_pow (by norm_num), hlog]
    omega
  have hmantissa : binary64.mantissa ((2 ^ 53 + 1) * 2 ^ b) 1 = 2 ^ 52 := by
    have hhalf : 2 ^ (b + 1074 + 1) = 2 * 2 ^ (b + 1074) := pow_succ' 2 _
    rw [BinaryFormat.mantissa, hshift, one_eq, mul_assoc, ← pow_add, hstep, one_mul, hhalf,
      roundHalfEven_mul _ _ (Nat.two_pow_pos _), hround]
  rw [BinaryFormat.nearest_eq_min, hshift, hmantissa, binade_eq, infinity_eq]
  omega

/-- The size of a sum of finite values is rounded from one that is no larger than theirs together. -/
theorem exists_add_eq (hx : x.isFinite = true) (hy : y.isFinite = true) :
    ∃ negative n, n ≤ units x + units y ∧ x + y = ofRatio negative n binary64.one := by
  refine ⟨_, _, ?_, add_eq hx hy⟩
  refine (Int.natAbs_add_le _ _).trans_eq ?_
  rw [signedUnits, signedUnits, natAbs_withSign, natAbs_withSign]

/-- A value is added to a sum of `n` values. -/
theorem AtMost.add (hx : AtMost (min n (2 ^ 53) * 2 ^ b) x) (hy : AtMost (2 ^ b) y)
    (h : Fits (min (n + 1) (2 ^ 53) * 2 ^ b)) : AtMost (min (n + 1) (2 ^ 53) * 2 ^ b) (x + y) := by
  have hle : min n (2 ^ 53) * 2 ^ b ≤ min (n + 1) (2 ^ 53) * 2 ^ b := Nat.mul_le_mul_right _ (by omega)
  have hone : 2 ^ b ≤ min (n + 1) (2 ^ 53) * 2 ^ b := Nat.le_mul_of_pos_left _ (by omega)
  obtain ⟨negative, k, hk, hsum⟩ :=
    exists_add_eq (hx.isFinite (h.mono hle)) (hy.isFinite (h.mono hone))
  rw [hsum]
  have hexact : k ≤ (min n (2 ^ 53) + 1) * 2 ^ b * binary64.one := by
    rw [Nat.add_mul, one_mul, Nat.add_mul]
    exact hk.trans (Nat.add_le_add hx hy)
  rcases Nat.lt_or_ge n (2 ^ 53) with hn | hn
  · have hcount : min (n + 1) (2 ^ 53) = min n (2 ^ 53) + 1 := by omega
    rw [hcount] at h ⊢
    exact atMost_ofRatio negative (one_pos _) (exists_units_multiple (by omega) h) hexact
  · rw [min_eq_right hn] at hexact
    rw [min_eq_right (by omega)] at h ⊢
    have hb : b ≤ 970 := by
      rw [← pow_add, fits_two_pow_iff] at h
      omega
    rw [← pow_add, atMost_two_pow_iff, Bounded, magnitude_ofRatio, ← nearest_succ_multiple b hb]
    exact BinaryFormat.nearest_mono (one_pos _) Nat.one_pos (by rwa [mul_one])

/-! ## Means -/

theorem units_ofNat_of_le (hm : m ≤ 2 ^ 53) : units (ofNat m) = m * binary64.one := by
  obtain ⟨k, hk, hunits⟩ := exists_units_multiple (s := 0) hm (by
    rw [pow_zero, mul_one]
    exact (fits_two_pow_iff.2 (by norm_num)).mono hm)
  rw [pow_zero, mul_one] at hunits
  rw [units, ofNat, magnitude_ofRatio, binary64.nearest_units Nat.one_pos hk (by rw [hunits, mul_one]), hunits]

theorem magnitude_ofNat_mono (h : m ≤ n) : magnitude (ofNat m) ≤ magnitude (ofNat n) := by
  rw [ofNat, ofNat, magnitude_ofRatio, magnitude_ofRatio]
  exact BinaryFormat.nearest_mono Nat.one_pos Nat.one_pos (Nat.mul_le_mul_right 1 h)

theorem le_units_ofNat (n : Nat) : min n (2 ^ 53) * binary64.one ≤ units (ofNat n) := by
  rw [← units_ofNat_of_le (min_le_right n _)]
  exact binary64.units_strictMono.monotone (magnitude_ofNat_mono (min_le_left n _))

/-- Too many are infinitely many. -/
theorem ofNat_of_not_isFinite (h : ¬ (ofNat n).isFinite = true) :
    ofNat n = ofMagnitude false binary64.infinity := by
  rw [isFinite_iff, ofNat, magnitude_ofRatio] at h
  rw [ofNat, ofRatio, (nearest_le_infinity n 1).antisymm (not_lt.1 h)]

theorem magnitude_ofNat_pos (hn : 0 < n) : 0 < magnitude (ofNat n) := by
  by_contra h
  have hle := le_units_ofNat n
  have hzero : units (ofNat n) = 0 := by rw [units, Nat.eq_zero_of_not_pos h]; rfl
  rw [hzero, Nat.le_zero, Nat.mul_eq_zero] at hle
  have hone := one_pos binary64
  omega

theorem magnitude_pack_zero (t : Float.Model.UnpackedFloat.Sign) :
    magnitude (Float.ofModel (Float.Model.pack (.zero t))) = 0 := by
  cases t <;> rfl

/-- What is finite is nothing as against what is not. -/
theorem magnitude_div_of_infinite (hx : x.isFinite = true) (hy : magnitude y = binary64.infinity) :
    magnitude (x / y) = 0 := by
  have hrounded := rounded_toModel hx
  have hshape := shape y
  rw [hy] at hshape
  rw [div_toModel]
  generalize x.toModel.unpack = u, y.toModel.unpack = v at hrounded hshape ⊢
  cases hshape with
  | zero hk => cases hk
  | finite _ _ _ hk => exact absurd hk (lt_irrefl _)
  | notANumber hk => exact absurd hk (lt_irrefl _)
  | infinite hk => cases hrounded <;> exact magnitude_pack_zero _

theorem magnitude_div_of_not_isFinite (hx : x.isFinite = true) (h : ¬ (ofNat n).isFinite = true) :
    magnitude (x / ofNat n) = 0 := by
  refine magnitude_div_of_infinite hx ?_
  rw [ofNat_of_not_isFinite h]
  rfl

/-- The mean of `n` values of at most `2 ^ b` is at most `2 ^ b`. -/
theorem bounded_div_ofNat (hn : 0 < n) (h : AtMost (min n (2 ^ 53) * 2 ^ b) x) (hx : x.isFinite = true) :
    Bounded b (x / ofNat n) := by
  by_cases hfinite : (ofNat n).isFinite = true
  · have hpos := magnitude_ofNat_pos hn
    have hunits : 0 < units (ofNat n) := binary64.units_strictMono hpos
    rw [div_eq hx hfinite hpos]
    refine bounded_ofRatio _ hunits ?_
    calc units x ≤ 2 ^ b * (min n (2 ^ 53) * binary64.one) := by
          rw [← mul_assoc, mul_comm (2 ^ b)]
          exact h
      _ ≤ 2 ^ b * units (ofNat n) := Nat.mul_le_mul_left _ (le_units_ofNat n)
  · rw [Bounded, magnitude_div_of_not_isFinite hx hfinite]
    exact Nat.zero_le _

/-- What is larger than something when multiplied is not zero. -/
theorem magnitude_pos_of_le (hn : 0 < n) (h : n ≤ c * units y) : 0 < magnitude y := by
  refine Nat.pos_of_ne_zero fun hzero => hn.ne' ?_
  have hunits : units y = 0 := by
    rw [units, hzero]
    rfl
  rwa [hunits, mul_zero, Nat.le_zero] at h

/-- A divisor of at least one makes nothing larger. -/
theorem magnitude_div_le (hx : x.isFinite = true) (hy : y.isFinite = true) (h : binary64.one ≤ units y) :
    magnitude (x / y) ≤ magnitude x := by
  have hpos : 0 < magnitude y := magnitude_pos_of_le (c := 1) (one_pos _) (by rwa [one_mul])
  rw [div_eq hx hy hpos, magnitude_ofRatio, ← nearest_units_self hx]
  exact BinaryFormat.nearest_mono (binary64.units_strictMono hpos) (one_pos _) (Nat.mul_le_mul_left _ h)

theorem magnitude_div_ofNat_le (hn : 0 < n) (hx : x.isFinite = true) :
    magnitude (x / ofNat n) ≤ magnitude x := by
  by_cases hfinite : (ofNat n).isFinite = true
  · have hone : 1 * binary64.one ≤ units (ofNat n) :=
      le_trans (Nat.mul_le_mul_right _ (by omega)) (le_units_ofNat n)
    exact magnitude_div_le hx hfinite (by rwa [one_mul] at hone)
  · rw [magnitude_div_of_not_isFinite hx hfinite]
    exact Nat.zero_le _

/-! ## What is not finite -/

section

variable {f : Float.Model.Format} {u v : UnpackedFloat}

theorem model_add_not_isFinite (h : u.isFinite = false) : (u.add f v).isFinite = false := by
  cases u with
  | zero | finite => cases h
  | notANumber => rfl
  | infinity s =>
    cases v with
    | infinity t => cases s <;> cases t <;> rfl
    | _ => rfl

theorem model_div_not_isFinite (h : u.isFinite = false) : (u.div f v).isFinite = false := by
  cases u with
  | zero | finite => cases h
  | notANumber => rfl
  | infinity s => cases v <;> rfl

theorem pack_not_isFinite (h : u.isFinite = false) :
    (Float.ofModel (Float.Model.pack u)).isFinite = false := by
  cases u with
  | zero | finite => cases h
  | notANumber => rfl
  | infinity s => cases s <;> rfl

end

/-- What is not finite stays so, whatever is added to it. -/
theorem isFinite_of_add (h : (x + y).isFinite = true) : x.isFinite = true := by
  by_contra hx
  rw [add_toModel, pack_not_isFinite (model_add_not_isFinite (Bool.eq_false_iff.2 hx))] at h
  cases h

theorem isFinite_of_div (h : (x / y).isFinite = true) : x.isFinite = true := by
  by_contra hx
  rw [div_toModel, pack_not_isFinite (model_div_not_isFinite (Bool.eq_false_iff.2 hx))] at h
  cases h

theorem exists_unpack_infinity (hx : x.isNaN = false) (h : ¬ x.isFinite = true) :
    ∃ s, x.toModel.unpack = .infinity s := by
  change ¬ x.toModel.unpack.isFinite = true at h
  change x.toModel.unpack.isNaN = false at hx
  cases hu : x.toModel.unpack with
  | infinity s => exact ⟨s, rfl⟩
  | notANumber =>
    rw [hu] at hx
    cases hx
  | zero | finite =>
    rw [hu] at h
    exact absurd rfl h

theorem not_isNaN_pack_infinity (s : Float.Model.UnpackedFloat.Sign) :
    (Float.ofModel (Float.Model.pack (.infinity s))).isNaN = false := by
  cases s <;> rfl

/-- Only infinities have no sum. -/
theorem not_isNaN_add (hx : x.isNaN = false) (hy : y.isFinite = true) : (x + y).isNaN = false := by
  by_cases hfinite : x.isFinite = true
  · rw [add_eq hfinite hy]
    exact isNaN_ofRatio _ _ _
  · obtain ⟨s, hu⟩ := exists_unpack_infinity hx hfinite
    change y.toModel.unpack.isFinite = true at hy
    rw [add_toModel, hu]
    generalize y.toModel.unpack = v at hy ⊢
    cases v with
    | notANumber | infinity => cases hy
    | zero | finite => exact not_isNaN_pack_infinity s

theorem not_isNaN_div (hx : x.isNaN = false) (hy : y.isFinite = true) (hpos : 0 < magnitude y) :
    (x / y).isNaN = false := by
  by_cases hfinite : x.isFinite = true
  · rw [div_eq hfinite hy hpos]
    exact isNaN_ofRatio _ _ _
  · obtain ⟨s, hu⟩ := exists_unpack_infinity hx hfinite
    have hrounded := rounded_toModel hy
    rw [div_toModel, hu]
    generalize y.toModel.unpack = v at hrounded ⊢
    cases hrounded with
    | zero hk => exact absurd hk hpos.ne'
    | finite => exact not_isNaN_pack_infinity _

/-! ## The largest value -/

theorem max_eq_or (x y : Float) : max x y = x ∨ max x y = y := by
  unfold max
  split_ifs
  · exact .inr rfl
  · exact .inl rfl

theorem isFinite_max (hx : x.isFinite = true) (hy : y.isFinite = true) : (max x y).isFinite = true := by
  rcases max_eq_or x y with h | h <;> rwa [h]

theorem rank_of_not_isNegative (h : isNegative x = false) : rank x = magnitude x := by
  rw [rank, h]
  rfl

theorem rank_max (hx : x.isNaN = false) (hy : y.isNaN = false) :
    rank (max x y) = Max.max (rank x) (rank y) := by
  unfold max
  rw [hx, Bool.or_false]
  split_ifs with h
  · rw [decide_eq_true_eq, lt_iff_rank_lt hx hy] at h
    exact (max_eq_right h.le).symm
  · rw [decide_eq_true_eq, lt_iff_rank_lt hx hy, not_lt] at h
    exact (max_eq_left h).symm

theorem isNegative_max (hx : x.isNaN = false) (hsign : isNegative x = false) :
    isNegative (max x y) = false := by
  unfold max
  rw [hx, Bool.or_false]
  split_ifs with h
  · rw [decide_eq_true_eq] at h
    obtain ⟨-, hy⟩ := not_isNaN_of_lt h
    rw [lt_iff_rank_lt hx hy, rank_of_not_isNegative hsign] at h
    rw [Bool.eq_false_iff]
    intro hneg
    rw [rank, withSign, if_pos hneg] at h
    omega
  · exact hsign

theorem isNegative_foldl_max {xs : List Float} (hsign : isNegative x = false)
    (hxs : ∀ y ∈ x :: xs, y.isNaN = false) : isNegative (xs.foldl max x) = false := by
  induction xs generalizing x with
  | nil => exact hsign
  | cons y xs ih =>
    obtain ⟨hx, hy, hxs⟩ : _ ∧ _ ∧ _ := by simpa only [List.forall_mem_cons] using hxs
    have hmax : (max x y).isNaN = false := by rcases max_eq_or x y with h | h <;> rwa [h]
    exact ih (isNegative_max hx hsign) (List.forall_mem_cons.2 ⟨hmax, hxs⟩)

/-- The largest of a list of values is one of them, and none is larger. -/
theorem foldl_max_mem (x : Float) (xs : List Float) : xs.foldl max x ∈ x :: xs := by
  induction xs generalizing x with
  | nil => exact List.mem_singleton_self x
  | cons y xs ih =>
    rcases List.mem_cons.1 (ih (max x y)) with h | h
    · rw [List.foldl_cons, h]
      rcases max_eq_or x y with h | h <;> rw [h]
      · exact List.mem_cons_self
      · exact List.mem_cons_of_mem _ List.mem_cons_self
    · exact List.mem_cons_of_mem _ (List.mem_cons_of_mem _ h)

theorem rank_le_foldl_max {xs : List Float} (hxs : ∀ y ∈ x :: xs, y.isNaN = false) :
    ∀ y ∈ x :: xs, rank y ≤ rank (xs.foldl max x) := by
  induction xs generalizing x with
  | nil =>
    intro y hy
    rw [List.mem_singleton.1 hy]
    exact le_rfl
  | cons z xs ih =>
    obtain ⟨hx, hz, hxs⟩ : _ ∧ _ ∧ _ := by simpa only [List.forall_mem_cons] using hxs
    have hmax : (max x z).isNaN = false := by rcases max_eq_or x z with h | h <;> rwa [h]
    have hle := ih (List.forall_mem_cons.2 ⟨hmax, hxs⟩)
    have hfirst := hle _ List.mem_cons_self
    rw [rank_max hx hz] at hfirst
    refine List.forall_mem_cons.2 ⟨le_trans (le_max_left _ _) hfirst,
      List.forall_mem_cons.2 ⟨le_trans (le_max_right _ _) hfirst, fun y hy => ?_⟩⟩
    exact hle y (List.mem_cons_of_mem _ hy)

theorem beq_zero_iff (hx : x.isNaN = false) : (x == 0) = true ↔ magnitude x = 0 := by
  rw [beq_iff_rank_eq hx rfl, rank_zero, ← Int.natAbs_eq_zero, natAbs_rank]

/-! ## Products, quotients and roots -/

/-- The larger a factor, the larger the product. -/
theorem magnitude_mul_mono {x' y' : Float} (hx : x.isFinite = true) (hx' : x'.isFinite = true)
    (hy : y.isFinite = true) (hy' : y'.isFinite = true) (h : magnitude x ≤ magnitude x')
    (h' : magnitude y ≤ magnitude y') : magnitude (x * y) ≤ magnitude (x' * y') := by
  have hone : 0 < binary64.one * binary64.one := Nat.mul_pos (one_pos _) (one_pos _)
  rw [mul_eq hx hy, mul_eq hx' hy', magnitude_ofRatio, magnitude_ofRatio]
  refine BinaryFormat.nearest_mono hone hone (Nat.mul_le_mul_right _ ?_)
  exact Nat.mul_le_mul (binary64.units_strictMono.monotone h) (binary64.units_strictMono.monotone h')

theorem isNegative_mul (hx : x.isFinite = true) (hy : y.isFinite = true) :
    isNegative (x * y) = (isNegative x ^^ isNegative y) := by
  rw [mul_eq hx hy, isNegative_ofRatio]

/-- A factor of at most one makes nothing larger. -/
theorem magnitude_mul_le (hx : x.isFinite = true) (hy : Bounded 0 y) :
    magnitude (x * y) ≤ magnitude x := by
  have hfinite := hy.isFinite (Nat.zero_le _)
  rw [mul_eq hx hfinite, magnitude_ofRatio, ← nearest_units_self hx]
  refine BinaryFormat.nearest_mono (Nat.mul_pos (one_pos _) (one_pos _)) (one_pos _) ?_
  have hle := hy.units_le
  rw [pow_zero, one_mul] at hle
  rw [mul_assoc]
  exact Nat.mul_le_mul_left _ (Nat.mul_le_mul_right _ hle)

/-- No positive double has a square root below `2 ^ -537`. -/
theorem le_units_sqrt (hx : x.isFinite = true) (hsign : isNegative x = false) (hpos : 0 < magnitude x) :
    binary64.one ≤ 2 ^ 537 * units x.sqrt := by
  obtain ⟨m, n, e, t, hm, he, ht, -, hroot, hsqrt⟩ := sqrt_eq hx hsign hpos
  obtain ⟨s, hs⟩ : ∃ s, s = (-537 - t).toNat := ⟨_, rfl⟩
  have hquarter : 2 ^ s ≤ n / 4 := by
    rw [hroot, Nat.le_sqrt', ← pow_mul]
    exact (Nat.pow_le_pow_right Nat.two_pos (by omega)).trans (Nat.le_mul_of_pos_left _ hm)
  have hratio : 1 * (4 * 2 ^ (-t).toNat) ≤ n * 2 ^ t.toNat * 2 ^ 537 := by
    calc 1 * (4 * 2 ^ (-t).toNat) ≤ 4 * 2 ^ (s + t.toNat + 537) := by
          rw [one_mul]
          exact Nat.mul_le_mul_left 4 (Nat.pow_le_pow_right Nat.two_pos (by omega))
      _ = 4 * 2 ^ s * 2 ^ t.toNat * 2 ^ 537 := by rw [pow_add, pow_add, ← mul_assoc, ← mul_assoc]
      _ ≤ n * 2 ^ t.toNat * 2 ^ 537 := by
          refine Nat.mul_le_mul_right _ (Nat.mul_le_mul_right _ ?_)
          omega
  have hleast : binary64.one ≤ 2 ^ 537 * units (ofRatio false 1 (2 ^ 537)) := by decide +kernel
  refine hleast.trans (Nat.mul_le_mul_left _ ?_)
  rw [hsqrt, units, units, magnitude_ofRatio, magnitude_ofRatio]
  exact binary64.units_strictMono.monotone
    (BinaryFormat.nearest_mono (by positivity) (by positivity) hratio)

/-- A quotient whose divisor is not too small for its size is bounded. -/
theorem bounded_div {a : Nat} (hx : Bounded a x) (ha : a ≤ 1023) (hy : y.isFinite = true)
    (h : 2 ^ a * binary64.one ≤ 2 ^ b * units y) : Bounded b (x / y) := by
  have hpos := magnitude_pos_of_le (Nat.mul_pos (Nat.two_pow_pos a) (one_pos _)) h
  rw [div_eq (hx.isFinite ha) hy hpos]
  exact bounded_ofRatio _ (binary64.units_strictMono hpos) (hx.units_le.trans h)

end SkillBoard.Binary64
