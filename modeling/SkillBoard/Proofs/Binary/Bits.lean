import Mathlib
import SkillBoard.Binary

/-!
# Doubles as signs and magnitudes

The logical model of a double unpacks its bits to a sign, a mantissa and an exponent. Here this is read
off the sign and the magnitude (`unpack_toModel`), which gives

* what a magnitude says about the value: `isNaN_iff`, `isFinite_iff`;
* that bits and values determine each other: `magnitude_ofMagnitude`, `ofMagnitude_self`;
* the order: away from what is not a number, values compare as their signed magnitudes
  (`lt_iff_rank_lt`, `le_iff_rank_le`, `compare_eq_rank`), and so both zeros are one place;
* the exact value `toRat`, and when it is an integer (`toRat_eq_intCast_iff`).
-/

namespace SkillBoard.Binary64

open Float.Model (Format UnpackedFloat)
open Float.Model.UnpackedFloat (Sign packComponents unpackMantissa unpackExponent unpackSign)

/-! ## The three parts of the bits -/

theorem toNat_packComponents (s : Sign) (e : BitVec 11) (m : BitVec 52) :
    (packComponents .binary64 s e m).toNat =
      s.toBitVec.toNat * 2 ^ 63 + e.toNat * 2 ^ 52 + m.toNat := by
  have he := e.isLt
  have hm := m.isLt
  simp only [packComponents, BitVec.toNat_append]
  rw [← Nat.shiftLeft_add_eq_or_of_lt (by simpa using hm),
    ← Nat.shiftLeft_add_eq_or_of_lt (by simpa using he)]
  simp only [Nat.shiftLeft_eq]
  ring

theorem toNat_unpackMantissa (b : BitVec 64) :
    (@unpackMantissa .binary64 b).toNat = b.toNat % 2 ^ 52 := by
  simp [unpackMantissa, BitVec.extractLsb]

theorem toNat_unpackExponent (b : BitVec 64) :
    (@unpackExponent .binary64 b).toNat = b.toNat / 2 ^ 52 % 2 ^ 11 := by
  simp [unpackExponent, BitVec.extractLsb, Nat.shiftRight_eq_div_pow]

theorem toNat_unpackSign (b : BitVec 64) :
    (@unpackSign .binary64 b).toNat = b.toNat / 2 ^ 63 := by
  have := b.isLt
  simp [unpackSign, BitVec.extractLsb, Nat.shiftRight_eq_div_pow]
  omega

/-- The sign of the model that a sign bit stands for. -/
def modelSign (negative : Bool) : Sign := if negative then .negative else .positive

theorem toNat_modelSign (negative : Bool) : (modelSign negative).toBitVec.toNat = negative.toNat := by
  cases negative <;> rfl

theorem ofBitVec_unpackSign (b : BitVec 64) :
    Sign.ofBitVec (@unpackSign .binary64 b) = modelSign (decide (2 ^ 63 ≤ b.toNat)) := by
  have hs := toNat_unpackSign b
  have hb := b.isLt
  have hzero : @unpackSign .binary64 b = 0#1 ↔ ¬ 2 ^ 63 ≤ b.toNat := by
    rw [← BitVec.toNat_inj, hs, BitVec.toNat_zero]
    omega
  simp only [Sign.ofBitVec, modelSign, hzero, decide_eq_true_eq, ite_not]

/-! ## Unpacking -/

/-- The value that a sign and a magnitude below `2 ^ 63` stand for. -/
def unpacked (negative : Bool) (k : Nat) : UnpackedFloat :=
  let sign := modelSign negative
  if k / 2 ^ 52 = 2047 then if k % 2 ^ 52 = 0 then .infinity sign else .notANumber
  else if k / 2 ^ 52 = 0 then
    if h : k = 0 then .zero sign else .finite sign k (-1074) (Nat.pos_of_ne_zero h)
  else .finite sign (2 ^ 52 + k % 2 ^ 52) ((k / 2 ^ 52 : Nat) - 1075) (by positivity)

theorem unpack_eq (b : BitVec 64) :
    UnpackedFloat.unpack .binary64 b =
      unpacked (decide (2 ^ 63 ≤ b.toNat)) (b.toNat % 2 ^ 63) := by
  have hb := b.isLt
  have hm := toNat_unpackMantissa b
  have he := toNat_unpackExponent b
  have hexp : b.toNat % 2 ^ 63 / 2 ^ 52 = b.toNat / 2 ^ 52 % 2 ^ 11 := by omega
  have hman : b.toNat % 2 ^ 63 % 2 ^ 52 = b.toNat % 2 ^ 52 := by omega
  have htop : @unpackExponent .binary64 b = -1#_ ↔ b.toNat % 2 ^ 63 / 2 ^ 52 = 2047 := by
    rw [← BitVec.toNat_inj, he, hexp]
    simp
  have hlow : @unpackExponent .binary64 b = 0#_ ↔ b.toNat % 2 ^ 63 / 2 ^ 52 = 0 := by
    rw [← BitVec.toNat_inj, he, hexp]
    simp
  have hzero : @unpackMantissa .binary64 b = 0#_ ↔ b.toNat % 2 ^ 63 % 2 ^ 52 = 0 := by
    rw [← BitVec.toNat_inj, hm, hman]
    simp
  have hlead : (1#1 ++ @unpackMantissa .binary64 b).toNat =
      2 ^ 52 + b.toNat % 2 ^ 63 % 2 ^ 52 := by
    rw [BitVec.toNat_append, ← Nat.shiftLeft_add_eq_or_of_lt (BitVec.isLt _), hm, hman]
    rfl
  unfold UnpackedFloat.unpack unpacked
  simp only [ofBitVec_unpackSign, htop, hlow, hzero, hlead, he, ← hexp]
  split_ifs with h1 h2 h3 h4 h5 h5
  · rfl
  · rfl
  · rfl
  · omega
  · omega
  · have hsame : b.toNat % 2 ^ 52 = b.toNat % 2 ^ 63 := by omega
    simp only [hm, hsame, h3]
    rfl
  · rfl

theorem magnitude_lt (x : Float) : magnitude x < 2 ^ 63 := Nat.mod_lt _ (by decide)

theorem unpack_toModel (x : Float) : x.toModel.unpack = unpacked (isNegative x) (magnitude x) :=
  unpack_eq x.toBits.toBitVec

theorem infinity_eq : binary64.infinity = 2047 * 2 ^ 52 := rfl

/-- The four kinds of values and their magnitudes. Of a finite one, mantissa and exponent make up the
magnitude, and the mantissa is normal above the least exponent. -/
inductive Shape (negative : Bool) (k : Nat) : UnpackedFloat → Prop
  | zero (hk : k = 0) : Shape negative k (.zero (modelSign negative))
  | finite (m : Nat) (e : Int) (hm : 0 < m) (hk : k < binary64.infinity)
      (hmk : (k : Int) = (e + 1074) * 2 ^ 52 + m) (hlt : m < 2 ^ 53) (hle : -1074 ≤ e)
      (hnormal : -1074 < e → 2 ^ 52 ≤ m) : Shape negative k (.finite (modelSign negative) m e hm)
  | infinite (hk : k = binary64.infinity) : Shape negative k (.infinity (modelSign negative))
  | notANumber (hk : binary64.infinity < k) : Shape negative k .notANumber

theorem shape_unpacked (negative : Bool) (k : Nat) (hlt : k < 2 ^ 63) :
    Shape negative k (unpacked negative k) := by
  have hinf := infinity_eq
  unfold unpacked
  simp only []
  split_ifs with h1 h2 h3 h4
  · exact .infinite (by omega)
  · exact .notANumber (by omega)
  · exact .zero h4
  · exact .finite _ _ _ (by omega) (by omega) (by omega) (by omega) (by omega)
  · exact .finite _ _ _ (by omega) (by omega) (by omega) (by omega) (by omega)

theorem shape (x : Float) : Shape (isNegative x) (magnitude x) x.toModel.unpack :=
  unpack_toModel x ▸ shape_unpacked _ _ (magnitude_lt x)

theorem isNaN_iff (x : Float) : x.isNaN = true ↔ binary64.infinity < magnitude x := by
  have h := shape x
  change x.toModel.unpack.isNaN = true ↔ _
  generalize x.toModel.unpack = u at h ⊢
  cases h with
  | zero hk => simp [UnpackedFloat.isNaN, hk]
  | finite m e hm hk => simp [UnpackedFloat.isNaN, hk.le]
  | infinite hk => simp [UnpackedFloat.isNaN, hk]
  | notANumber hk => simp [UnpackedFloat.isNaN, hk]

theorem isFinite_iff (x : Float) : x.isFinite = true ↔ magnitude x < binary64.infinity := by
  have h := shape x
  change x.toModel.unpack.isFinite = true ↔ _
  generalize x.toModel.unpack = u at h ⊢
  cases h with
  | zero hk => simp [UnpackedFloat.isFinite, hk, infinity_eq]
  | finite m e hm hk => simp [UnpackedFloat.isFinite, hk]
  | infinite hk => simp [UnpackedFloat.isFinite, hk]
  | notANumber hk => simp [UnpackedFloat.isFinite, hk.le]

theorem isInf_of_isFinite {x : Float} (h : x.isFinite = true) : x.isInf = false := by
  have hshape := shape x
  rw [isFinite_iff] at h
  change x.toModel.unpack.isInf = false
  generalize x.toModel.unpack = u at hshape ⊢
  cases hshape with
  | infinite hk => omega
  | _ => rfl

theorem not_isNaN_of_isFinite {x : Float} (h : x.isFinite = true) : x.isNaN = false := by
  rw [isFinite_iff] at h
  rw [Bool.eq_false_iff, ne_eq, isNaN_iff]
  omega

/-! ## Packing -/

theorem log2_lead (m : Nat) (hm : m < 2 ^ 52) : (2 ^ 52 + m).log2 = 52 := by
  rw [Nat.log2_eq_iff (by omega)]
  omega

theorem toNat_pack_unpacked (negative : Bool) (k : Nat) (hk : k ≤ binary64.infinity) :
    (UnpackedFloat.pack .binary64 (unpacked negative k)).toNat = negative.toNat * 2 ^ 63 + k := by
  have hbias : (Format.binary64.exponentBias : Int) = 1023 := rfl
  have hwidth : Format.binary64.mantissaBits = 53 := rfl
  rw [infinity_eq] at hk
  unfold unpacked
  simp only []
  split_ifs with h1 h2 h3 h4
  · have hk : k = 2047 * 2 ^ 52 := by omega
    rw [UnpackedFloat.pack, UnpackedFloat.packedInfinity, toNat_packComponents, toNat_modelSign, hk]
    simp
  · omega
  · rw [UnpackedFloat.pack, UnpackedFloat.packedZero, toNat_packComponents, toNat_modelSign, h4]
    simp
  · have hlog : k.log2 < 52 := (Nat.log2_lt h4).2 (by omega)
    simp only [UnpackedFloat.pack, hbias, hwidth]
    rw [if_neg (by decide), if_neg (by omega), toNat_packComponents, toNat_modelSign,
      BitVec.toNat_ofNat, BitVec.toNat_ofNat]
    omega
  · have hexp : ((k / 2 ^ 52 : Nat) - 1075 + 1023 + (52 : Nat) : Int).toNat = k / 2 ^ 52 := by omega
    have hlog := log2_lead (k % 2 ^ 52) (Nat.mod_lt k (by norm_num))
    simp only [UnpackedFloat.pack, hbias, hwidth, hlog, hexp]
    rw [if_neg (by omega), if_pos trivial, toNat_packComponents, toNat_modelSign,
      BitVec.toNat_ofNat, BitVec.toNat_ofNat]
    omega

theorem toNat_toBits (x : Float) :
    x.toBits.toNat = (isNegative x).toNat * 2 ^ 63 + magnitude x := by
  have h := x.toBits.toNat_lt
  have hsign : signBit = 2 ^ 63 := rfl
  simp only [isNegative, magnitude, hsign]
  by_cases hn : 2 ^ 63 ≤ x.toBits.toNat
  · rw [decide_eq_true hn, Bool.toNat_true]
    omega
  · rw [decide_eq_false hn, Bool.toNat_false]
    omega

theorem toNat_toBits_ofMagnitude (negative : Bool) {k : Nat} (hk : k ≤ binary64.infinity) :
    (ofMagnitude negative k).toBits.toNat = negative.toNat * 2 ^ 63 + k := by
  have hinf := infinity_eq
  obtain ⟨n, hn⟩ : ∃ n, n = negative.toNat * 2 ^ 63 + k := ⟨_, rfl⟩
  have hbits : (if negative then signBit + k else k) = n := by
    rw [hn]
    cases negative <;> simp [signBit]
  have hlt : n < 2 ^ 64 := by cases negative <;> simp at hn <;> omega
  have hsign : decide (2 ^ 63 ≤ n) = negative := by cases negative <;> simp at hn ⊢ <;> omega
  have hmag : n % 2 ^ 63 = k := by cases negative <;> simp at hn ⊢ <;> omega
  have hb : (UInt64.ofNat n).toBitVec.toNat = n := by simp; omega
  unfold ofMagnitude
  rw [hbits, ← hn]
  change (UnpackedFloat.pack .binary64
    (UnpackedFloat.unpack .binary64 (UInt64.ofNat n).toBitVec)).toNat = n
  rw [unpack_eq, hb, hsign, hmag, toNat_pack_unpacked negative k hk, hn]

theorem magnitude_ofMagnitude (negative : Bool) {k : Nat} (hk : k ≤ binary64.infinity) :
    magnitude (ofMagnitude negative k) = k := by
  rw [magnitude, toNat_toBits_ofMagnitude negative hk]
  rw [infinity_eq] at hk
  have hsign : signBit = 2 ^ 63 := rfl
  cases negative <;> simp only [hsign, Bool.toNat_true, Bool.toNat_false] <;> omega

theorem isNegative_ofMagnitude (negative : Bool) {k : Nat} (hk : k ≤ binary64.infinity) :
    isNegative (ofMagnitude negative k) = negative := by
  rw [isNegative, toNat_toBits_ofMagnitude negative hk]
  rw [infinity_eq] at hk
  have hsign : signBit = 2 ^ 63 := rfl
  cases negative with
  | false => simpa [hsign] using by omega
  | true => simp [hsign]

theorem isFinite_ofMagnitude (negative : Bool) {k : Nat} (hk : k < binary64.infinity) :
    (ofMagnitude negative k).isFinite = true := by
  rw [isFinite_iff, magnitude_ofMagnitude negative hk.le]
  exact hk

theorem eq_of_toBits {x y : Float} (h : x.toBits = y.toBits) : x = y := by
  obtain ⟨⟨a, ha⟩⟩ := x
  obtain ⟨⟨b, hb⟩⟩ := y
  obtain rfl : a = b := h
  rfl

/-- A value is determined by its sign and its magnitude. -/
theorem ofMagnitude_self {x : Float} (h : magnitude x ≤ binary64.infinity) :
    ofMagnitude (isNegative x) (magnitude x) = x := by
  apply eq_of_toBits
  rw [← UInt64.toNat_inj, toNat_toBits_ofMagnitude _ h, toNat_toBits]

theorem neg_unpacked (negative : Bool) (k : Nat) : (unpacked negative k).neg = unpacked (!negative) k := by
  have hsign : -modelSign negative = modelSign (!negative) := by cases negative <;> rfl
  unfold unpacked
  simp only []
  split_ifs <;> simp only [UnpackedFloat.neg, hsign]

theorem neg_ofMagnitude (negative : Bool) {k : Nat} (hk : k ≤ binary64.infinity) :
    -ofMagnitude negative k = ofMagnitude (!negative) k := by
  have hunpack := unpack_toModel (ofMagnitude negative k)
  rw [isNegative_ofMagnitude negative hk, magnitude_ofMagnitude negative hk] at hunpack
  apply eq_of_toBits
  rw [← UInt64.toNat_inj, toNat_toBits_ofMagnitude _ hk, ← toNat_pack_unpacked _ _ hk, ← neg_unpacked,
    ← hunpack]
  rfl

/-! ## Order -/

/-- A magnitude with a sign. -/
def withSign (negative : Bool) (k : Nat) : Int := if negative then -(k : Int) else k

/-- The place of a value among the numbers; both zeros have one. -/
def rank (x : Float) : Int := withSign (isNegative x) (magnitude x)

/-- Exponents decide first and mantissas then, which is the order of the magnitudes. -/
theorem compare_exponent_mantissa {d e : Int} {m n j k : Nat} (hj : (j : Int) = (d + 1074) * 2 ^ 52 + m)
    (hk : (k : Int) = (e + 1074) * 2 ^ 52 + n) (hm : m < 2 ^ 53) (hn : n < 2 ^ 53)
    (hd : -1074 ≤ d) (he : -1074 ≤ e) (hm' : -1074 < d → 2 ^ 52 ≤ m) (hn' : -1074 < e → 2 ^ 52 ≤ n) :
    (Ord.compare d e).then (Ord.compare m n) = Ord.compare (j : Int) (k : Int) := by
  rcases lt_trichotomy d e with h | h | h
  · rw [compare_lt_iff_lt.2 h, Ordering.lt_then, eq_comm, compare_lt_iff_lt]
    omega
  · subst h
    rw [compare_eq_iff_eq.2 rfl, Ordering.eq_then]
    rcases lt_trichotomy m n with h | h | h
    · rw [compare_lt_iff_lt.2 h, eq_comm, compare_lt_iff_lt]
      omega
    · rw [compare_eq_iff_eq.2 h, eq_comm, compare_eq_iff_eq]
      omega
    · rw [compare_gt_iff_gt.2 h, eq_comm, compare_gt_iff_gt]
      omega
  · rw [compare_gt_iff_gt.2 h, Ordering.gt_then, eq_comm, compare_gt_iff_gt]
    omega

theorem compare_neg (i j : Int) : Ord.compare (-i) (-j) = (Ord.compare i j).swap := by
  rcases lt_trichotomy i j with h | h | h
  · rw [compare_lt_iff_lt.2 h, Ordering.swap_lt, compare_gt_iff_gt]
    omega
  · rw [compare_eq_iff_eq.2 h, Ordering.swap_eq, compare_eq_iff_eq]
    omega
  · rw [compare_gt_iff_gt.2 h, Ordering.swap_gt, compare_lt_iff_lt]
    omega

theorem lt_eq_compare_iff {i j : Int} : Ordering.lt = Ord.compare i j ↔ i < j := by
  rw [eq_comm, compare_lt_iff_lt]

theorem eq_eq_compare_iff {i j : Int} : Ordering.eq = Ord.compare i j ↔ i = j := by
  rw [eq_comm, compare_eq_iff_eq]

theorem gt_eq_compare_iff {i j : Int} : Ordering.gt = Ord.compare i j ↔ j < i := by
  rw [eq_comm, compare_gt_iff_gt]

theorem compare_modelSign (m n : Bool) {k : Nat} (hk : 0 < k) :
    Ord.compare (modelSign m) (modelSign n) = Ord.compare (withSign m k) (withSign n k) := by
  cases m <;> cases n
  · exact eq_eq_compare_iff.2 rfl
  · exact gt_eq_compare_iff.2 (by simpa [withSign] using hk)
  · exact lt_eq_compare_iff.2 (by simpa [withSign] using hk)
  · exact eq_eq_compare_iff.2 rfl

/-- The model's order of values that are numbers is the order of their magnitudes with sign. -/
theorem model_compare {a b : UnpackedFloat} {m n : Bool} {j k : Nat} (ha : Shape m j a)
    (hb : Shape n k b) (hj : j ≤ binary64.infinity) (hk : k ≤ binary64.infinity) :
    a.compare b = some (Ord.compare (withSign m j) (withSign n k)) := by
  have hinf := infinity_eq
  cases ha with
  | notANumber h => omega
  | zero hj0 =>
    -- between values of different kinds the kinds and the signs decide
    cases hb <;> cases m <;> cases n <;>
      simp only [UnpackedFloat.compare, modelSign, withSign, Option.some_inj, lt_eq_compare_iff,
        eq_eq_compare_iff, gt_eq_compare_iff, if_true, if_false, Bool.false_eq_true, reduceCtorEq] <;>
      omega
  | infinite hj0 =>
    cases hb with
    | infinite hk0 =>
      rw [UnpackedFloat.compare, compare_modelSign m n (by omega : 0 < k), hj0, hk0]
    | _ =>
      cases m <;> cases n <;>
        simp only [UnpackedFloat.compare, modelSign, withSign, Option.some_inj, lt_eq_compare_iff,
          gt_eq_compare_iff, if_true, if_false, Bool.false_eq_true, reduceCtorEq] <;>
        omega
  | finite p d hp hj0 hmj hplt hd hpn =>
    cases hb with
    | finite q e hq hk0 hmk hqlt he hqn =>
      have hcmp := compare_exponent_mantissa hmj hmk hplt hqlt hd he hpn hqn
      cases m <;> cases n
      · simp only [UnpackedFloat.compare, modelSign, withSign, Bool.false_eq_true, if_false, hcmp]
      · simp only [UnpackedFloat.compare, modelSign, withSign, Option.some_inj, gt_eq_compare_iff,
          if_true, if_false, Bool.false_eq_true]
        omega
      · simp only [UnpackedFloat.compare, modelSign, withSign, Option.some_inj, lt_eq_compare_iff,
          if_true, if_false, Bool.false_eq_true]
        omega
      · simp only [UnpackedFloat.compare, modelSign, withSign, if_true, hcmp, compare_neg]
    | _ =>
      cases m <;> cases n <;>
        simp only [UnpackedFloat.compare, modelSign, withSign, Option.some_inj, lt_eq_compare_iff,
          gt_eq_compare_iff, if_true, if_false, Bool.false_eq_true, reduceCtorEq] <;>
        omega

theorem magnitude_le_of_not_isNaN {x : Float} (h : x.isNaN = false) :
    magnitude x ≤ binary64.infinity := by
  rw [Bool.eq_false_iff, ne_eq, isNaN_iff] at h
  omega

theorem lt_iff_rank_lt {x y : Float} (hx : x.isNaN = false) (hy : y.isNaN = false) :
    x < y ↔ rank x < rank y := by
  have h := model_compare (shape x) (shape y) (magnitude_le_of_not_isNaN hx)
    (magnitude_le_of_not_isNaN hy)
  change decide (x.toModel.unpack.lt y.toModel.unpack) = true ↔ _
  rw [UnpackedFloat.lt, h, decide_eq_true_eq, beq_iff_eq, Option.some_inj, compare_lt_iff_lt]
  rfl

theorem le_iff_toModel (x y : Float) : x ≤ y ↔ (x.toModel.unpack.le y.toModel.unpack) = true := by
  show decide (x.toModel.unpack.le y.toModel.unpack) = true ↔ _
  rw [decide_eq_true_eq]

theorem le_iff_rank_le {x y : Float} (hx : x.isNaN = false) (hy : y.isNaN = false) :
    x ≤ y ↔ rank x ≤ rank y := by
  have h := model_compare (shape x) (shape y) (magnitude_le_of_not_isNaN hx)
    (magnitude_le_of_not_isNaN hy)
  rw [le_iff_toModel, UnpackedFloat.le, h, Option.any_some, Ordering.isLE_iff_ne_gt]
  exact compare_gt_iff_gt.not.trans not_lt

/-- Values that are numbers compare as their places do. -/
theorem compare_eq_rank {x y : Float} (hx : x.isNaN = false) (hy : y.isNaN = false) :
    compare x y = Ord.compare (rank x) (rank y) := by
  unfold compare
  simp only [lt_iff_rank_lt hx hy, lt_iff_rank_lt hy hx]
  split_ifs with h1 h2
  · exact lt_eq_compare_iff.2 h1
  · exact gt_eq_compare_iff.2 h2
  · exact eq_eq_compare_iff.2 (by omega)

/-! ## The exact value -/

/-- The value of a finite double. -/
def toRat (x : Float) : ℚ := withSign (isNegative x) (units x) / binary64.one

theorem binade_eq : binary64.binade = 2 ^ 52 := rfl

theorem one_eq (f : BinaryFormat) : f.one = 2 ^ f.stepExponent := Nat.one_shiftLeft _

theorem one_pos (f : BinaryFormat) : 0 < f.one := by
  rw [one_eq]
  positivity

/-- The steps of a magnitude, from its mantissa and its exponent. -/
theorem units_of_parts {k m : Nat} {e : Int} (hmk : (k : Int) = (e + 1074) * 2 ^ 52 + m)
    (hlt : m < 2 ^ 53) (hle : -1074 ≤ e) (hnormal : -1074 < e → 2 ^ 52 ≤ m) :
    binary64.units k = m * 2 ^ (e + 1074).toNat := by
  rw [BinaryFormat.units, binade_eq]
  by_cases hlow : k < 2 ^ 52
  · rw [if_pos hlow]
    have he : e + 1074 = 0 := by omega
    have hm : k = m := by omega
    rw [he, hm, Int.toNat_zero, pow_zero, mul_one]
  · rw [if_neg hlow, Nat.shiftLeft_eq]
    have hm : 2 ^ 52 + k % 2 ^ 52 = m := by omega
    have he : k / 2 ^ 52 - 1 = (e + 1074).toNat := by omega
    rw [hm, he]

theorem abs_withSign (negative : Bool) (k : Nat) : |withSign negative k| = k := by
  cases negative <;> simp [withSign]

/-- A whole value is what is left of it without its fraction. -/
theorem toRat_eq_truncate {x : Float} (h : isWhole x = true) : toRat x = truncate x := by
  have hone : (binary64.one : ℚ) ≠ 0 := Nat.cast_ne_zero.2 (one_pos _).ne'
  have hdvd : units x / binary64.one * binary64.one = units x :=
    Nat.div_mul_cancel (Nat.dvd_of_mod_eq_zero (beq_iff_eq.1 h))
  rw [toRat, div_eq_iff hone, truncate]
  cases isNegative x
  · simp only [withSign, Bool.false_eq_true, if_false]
    exact_mod_cast hdvd.symm
  · simp only [withSign, if_true]
    push_cast
    rw [neg_mul, neg_inj]
    exact_mod_cast hdvd.symm

/-- The steps of a value that equals an integer. -/
theorem units_of_toRat {x : Float} {i : Int} (h : toRat x = i) : units x = i.natAbs * binary64.one := by
  have hone : (binary64.one : ℚ) ≠ 0 := Nat.cast_ne_zero.2 (one_pos _).ne'
  rw [toRat, div_eq_iff hone] at h
  have hint : withSign (isNegative x) (units x) = i * (binary64.one : Int) := by exact_mod_cast h
  have habs : (units x : Int) = |i| * (binary64.one : Int) := by
    rw [← abs_withSign (isNegative x), hint, abs_mul, Nat.abs_cast]
  rw [Int.abs_eq_natAbs] at habs
  exact_mod_cast habs

/-- A value that equals an integer is whole, so nothing of it is lost to its integer part. -/
theorem toRat_eq_intCast_iff {x : Float} {i : Int} :
    toRat x = i ↔ isWhole x = true ∧ truncate x = i := by
  constructor
  · intro h
    have hwhole : isWhole x = true := by
      rw [isWhole, beq_iff_eq, units_of_toRat h, Nat.mul_mod_left]
    refine ⟨hwhole, ?_⟩
    rw [toRat_eq_truncate hwhole] at h
    exact_mod_cast h
  · rintro ⟨hwhole, rfl⟩
    exact toRat_eq_truncate hwhole

theorem toRat_ofMagnitude (negative : Bool) {k : Nat} (hk : k ≤ binary64.infinity) :
    toRat (ofMagnitude negative k) = withSign negative (binary64.units k) / binary64.one := by
  rw [toRat, units, isNegative_ofMagnitude negative hk, magnitude_ofMagnitude negative hk]

theorem withSign_natAbs_mul (i : Int) (n : Nat) : withSign (decide (i < 0)) (i.natAbs * n) = i * n := by
  by_cases h : i < 0
  · rw [withSign, if_pos (decide_eq_true h), Nat.cast_mul, Int.ofNat_natAbs_of_nonpos h.le, neg_mul,
      neg_neg]
  · rw [withSign, if_neg (by simpa using h), Nat.cast_mul, Int.natAbs_of_nonneg (by omega)]

end SkillBoard.Binary64
