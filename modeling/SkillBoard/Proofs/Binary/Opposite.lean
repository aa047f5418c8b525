import SkillBoard.Proofs.Binary.Ranges

/-!
# Values and their negatives

Rounding to nearest does not look at signs. So what is computed from the negatives of some values is the
negative of what is computed from the values, except that an exact sum of zero has a sign of its own.

* `Mirrored` says this of the model's values, and sums, products and quotients keep it (`Mirrored.add`,
  `Mirrored.mul_right`, `Mirrored.div_right`).
* `Opposite` is the same relation between doubles, those that are not numbers included. Of numbers it says that
  one equals the negative of the other (`Opposite.beq_neg`).
-/

namespace SkillBoard.Binary64

open Float.Model (Format UnpackedFloat)
open Float.Model.UnpackedFloat (Sign Accuracy roundWithAccuracy packComponents)

/-! ## Signs in the model -/

section

variable (f : Format) (s t : Sign) (u v : UnpackedFloat)

theorem sign_neg_neg : - -s = s := by cases s <;> rfl

theorem sign_mul_comm : s * t = t * s := by cases s <;> cases t <;> rfl

theorem sign_neg_mul : -s * t = -(s * t) := by cases s <;> cases t <;> rfl

theorem sign_neg_div : -s / t = -(s / t) := by cases s <;> cases t <;> rfl

theorem sign_neg_apply (n : Int) : (-s).apply n = -s.apply n := by
  cases s with
  | negative => exact (neg_neg n).symm
  | positive => rfl

theorem neg_roundWithAccuracy (m : Nat) (e : Int) (a : Accuracy) :
    (roundWithAccuracy f s m e a).neg = roundWithAccuracy f (-s) m e a := by
  unfold roundWithAccuracy
  dsimp only
  split <;> rfl

theorem neg_normalize {n : Int} (hn : n ≠ 0) (e : Int) :
    (UnpackedFloat.normalize f n e s).neg = UnpackedFloat.normalize f (-n) e s := by
  unfold UnpackedFloat.normalize
  rcases lt_or_gt_of_ne hn with h | h
  · rw [compare_lt_iff_lt.2 h, compare_gt_iff_gt.2 (by omega : 0 < -n)]
    exact neg_roundWithAccuracy _ _ _ _ _
  · rw [compare_gt_iff_gt.2 h, compare_lt_iff_lt.2 (by omega : -n < 0), neg_neg]
    exact neg_roundWithAccuracy _ _ _ _ _

theorem model_neg_neg : u.neg.neg = u := by
  cases u with
  | notANumber => rfl
  | _ => simp only [UnpackedFloat.neg, sign_neg_neg]

theorem model_sub : u.sub f v = u.add f v.neg := by
  cases u with
  | finite s m e hm =>
    cases v with
    | finite t n d hn =>
      simp only [UnpackedFloat.sub, UnpackedFloat.add, UnpackedFloat.neg, sign_neg_apply, sub_eq_add_neg]
    | _ => rfl
  | _ => cases v <;> rfl

theorem model_mul_comm : u.mul f v = v.mul f u := by
  cases u <;> cases v <;> simp only [UnpackedFloat.mul, sign_mul_comm, Nat.mul_comm, Int.add_comm]

theorem model_neg_mul : u.neg.mul f v = (u.mul f v).neg := by
  cases u with
  | finite s m e hm =>
    cases v with
    | finite t n d hn =>
      rw [UnpackedFloat.mul, neg_roundWithAccuracy, ← sign_neg_mul]
      rfl
    | _ => simp only [UnpackedFloat.mul, UnpackedFloat.neg, sign_neg_mul]
  | _ => cases v <;> simp only [UnpackedFloat.mul, UnpackedFloat.neg, sign_neg_mul]

theorem model_neg_div : u.neg.div f v = (u.div f v).neg := by
  cases u with
  | finite s m e hm =>
    cases v with
    | finite t n d hn =>
      rw [UnpackedFloat.div, neg_roundWithAccuracy, ← sign_neg_div]
      rfl
    | _ => simp only [UnpackedFloat.div, UnpackedFloat.neg, sign_neg_div]
  | _ => cases v <;> simp only [UnpackedFloat.div, UnpackedFloat.neg, sign_neg_div]

end

/-- Two values of which one is the negative of the other. The signs of zeros do not count. -/
inductive Mirrored : UnpackedFloat → UnpackedFloat → Prop
  | neg (u : UnpackedFloat) : Mirrored u u.neg
  | zero (s t : Sign) : Mirrored (.zero s) (.zero t)

namespace Mirrored

variable {f : Format} {u u' v v' : UnpackedFloat}

theorem add_neg (u v : UnpackedFloat) : Mirrored (u.add f v) (u.neg.add f v.neg) := by
  cases u with
  | notANumber => exact .neg _
  | infinity s =>
    cases v with
    | infinity t => cases s <;> cases t <;> exact .neg _
    | _ => exact .neg _
  | zero s =>
    cases v with
    | zero t => cases s <;> cases t <;> exact .zero _ _
    | _ => exact .neg _
  | finite s m e hm =>
    cases v with
    | finite t n d hn =>
      simp only [UnpackedFloat.add, UnpackedFloat.neg, sign_neg_apply, ← neg_add]
      generalize s.apply _ + t.apply _ = sum
      rcases eq_or_ne sum 0 with rfl | hsum
      · exact .zero _ _
      · exact neg_normalize f .positive hsum _ ▸ .neg _
    | _ => exact .neg _

theorem add (hu : Mirrored u u') (hv : Mirrored v v') : Mirrored (u.add f v) (u'.add f v') := by
  cases hu with
  | neg u =>
    cases hv with
    | neg v => exact add_neg u v
    | zero s t =>
      cases u with
      | zero r => cases r <;> cases s <;> cases t <;> exact .zero _ _
      | _ => exact .neg _
  | zero s t =>
    cases hv with
    | neg v =>
      cases v with
      | zero r => cases r <;> cases s <;> cases t <;> exact .zero _ _
      | _ => exact .neg _
    | zero q r => cases q <;> cases r <;> cases s <;> cases t <;> exact .zero _ _

theorem symm (h : Mirrored u v) : Mirrored v u := by
  cases h with
  | neg =>
    have hback := Mirrored.neg u.neg
    rwa [model_neg_neg] at hback
  | zero s t => exact .zero t s

theorem neg_congr (h : Mirrored u v) : Mirrored u.neg v.neg := by
  cases h with
  | neg => exact .neg _
  | zero s t => exact .zero _ _

theorem mul_right (h : Mirrored u u') (v : UnpackedFloat) : Mirrored (u.mul f v) (u'.mul f v) := by
  cases h with
  | neg => exact model_neg_mul f u v ▸ .neg _
  | zero s t =>
    cases v with
    | notANumber | infinity => exact .neg .notANumber
    | zero | finite => exact .zero _ _

theorem div_right (h : Mirrored u u') (v : UnpackedFloat) : Mirrored (u.div f v) (u'.div f v) := by
  cases h with
  | neg => exact model_neg_div f u v ▸ .neg _
  | zero s t =>
    cases v with
    | notANumber | zero => exact .neg .notANumber
    | infinity | finite => exact .zero _ _

theorem mul_self (h : Mirrored u v) : v.mul f v = u.mul f u := by
  cases h with
  | neg => rw [model_neg_mul, model_mul_comm, model_neg_mul, model_neg_neg]
  | zero s t => cases s <;> cases t <;> rfl

end Mirrored

/-! ## Packing -/

theorem unpack_eq_notANumber {x : Float} (h : x.isNaN = true) : x.toModel.unpack = .notANumber := by
  change x.toModel.unpack.isNaN = true at h
  cases hu : x.toModel.unpack with
  | notANumber => rfl
  | _ =>
    rw [hu] at h
    cases h

/-- What is not a number is one value only, so all values are what they are unpacked to. -/
theorem ofModel_unpack (x : Float) : Float.ofModel (Float.Model.pack x.toModel.unpack) = x := by
  apply eq_of_toBits
  by_cases h : x.isNaN = true
  · have hu := unpack_eq_notANumber h
    have hbits : x.toModel.toBits.toBitVec = UnpackedFloat.packedNaN .binary64 := by
      rw [Float.Model.unpack, UnpackedFloat.unpack] at hu
      dsimp only at hu
      split_ifs at hu with hexponent hmantissa
      exact x.toModel.valid.eq_packedNaN hexponent hmantissa
    rw [hu]
    exact congrArg UInt64.ofBitVec hbits.symm
  · have hk := magnitude_le_of_not_isNaN (Bool.eq_false_iff.2 h)
    rw [← UInt64.toNat_inj, toNat_toBits x, ← toNat_pack_unpacked _ _ hk, ← unpack_toModel]
    rfl

theorem eq_of_unpack {x y : Float} (h : x.toModel.unpack = y.toModel.unpack) : x = y := by
  rw [← ofModel_unpack x, ← ofModel_unpack y, h]

theorem unpack_neg (x : Float) : (-x).toModel.unpack = x.toModel.unpack.neg := by
  by_cases h : x.isNaN = true
  · have hneg : -x = Float.ofModel (Float.Model.pack x.toModel.unpack.neg) := rfl
    rw [hneg, unpack_eq_notANumber h]
    rfl
  · have hk := magnitude_le_of_not_isNaN (Bool.eq_false_iff.2 h)
    have hneg := neg_ofMagnitude (isNegative x) hk
    rw [ofMagnitude_self hk] at hneg
    rw [hneg, unpack_toModel, unpack_toModel, isNegative_ofMagnitude _ hk, magnitude_ofMagnitude _ hk,
      neg_unpacked]

/-- Values that differ in the sign are packed to bits that differ in the sign. -/
theorem exists_toNat_pack {u : UnpackedFloat} (hu : u ≠ .notANumber) : ∃ negative k,
    k ≤ binary64.infinity ∧ (u.pack .binary64).toNat = Bool.toNat negative * 2 ^ 63 + k ∧
      (u.neg.pack .binary64).toNat = (!negative).toNat * 2 ^ 63 + k := by
  have hpack (s : Sign) (e : BitVec 11) (m : BitVec 52) (h : e.toNat * 2 ^ 52 + m.toNat ≤ binary64.infinity) :
      ∃ negative k, k ≤ binary64.infinity ∧
        (packComponents .binary64 s e m).toNat = Bool.toNat negative * 2 ^ 63 + k ∧
        (packComponents .binary64 (-s) e m).toNat = (!negative).toNat * 2 ^ 63 + k := by
    refine ⟨s == .negative, _, h, ?_, ?_⟩
    · rw [toNat_packComponents, add_assoc]
      cases s <;> rfl
    · rw [toNat_packComponents, add_assoc]
      cases s <;> rfl
  have hinf := infinity_eq
  cases u with
  | notANumber => exact absurd rfl hu
  | infinity s => exact hpack s _ _ (by decide)
  | zero s => exact hpack s _ _ (by decide)
  | finite s m e hm =>
    have hmantissa := (BitVec.ofNat 52 m).isLt
    simp only [UnpackedFloat.neg, UnpackedFloat.pack]
    split_ifs with hlarge hlead
    · exact hpack s _ _ (by decide)
    · refine hpack s _ _ ?_
      rw [BitVec.toNat_ofNat]
      omega
    · refine hpack s 0#_ _ ?_
      rw [BitVec.toNat_zero]
      omega

theorem neg_ofModel_pack (u : UnpackedFloat) :
    -Float.ofModel (Float.Model.pack u) = Float.ofModel (Float.Model.pack u.neg) := by
  by_cases hu : u = .notANumber
  · rw [hu]
    rfl
  · obtain ⟨negative, k, hk, hpack, hneg⟩ := exists_toNat_pack hu
    have hself {w : UnpackedFloat} {b : Bool} (h : (w.pack .binary64).toNat = b.toNat * 2 ^ 63 + k) :
        Float.ofModel (Float.Model.pack w) = ofMagnitude b k := by
      apply eq_of_toBits
      rw [← UInt64.toNat_inj, toNat_toBits_ofMagnitude _ hk, ← h]
      rfl
    rw [hself hpack, hself hneg, neg_ofMagnitude _ hk]

section

variable (x y : Float)

theorem sub_toModel : x - y =
    Float.ofModel (Float.Model.pack (UnpackedFloat.sub .binary64 x.toModel.unpack y.toModel.unpack)) :=
  rfl

protected theorem sub_eq_add_neg : x - y = x + -y := by
  rw [sub_toModel, add_toModel, unpack_neg, model_sub]

protected theorem mul_comm : x * y = y * x := by
  rw [mul_toModel, mul_toModel, model_mul_comm]

protected theorem neg_div : -x / y = -(x / y) := by
  rw [div_toModel, div_toModel, unpack_neg, model_neg_div, neg_ofModel_pack]

protected theorem abs_neg : (-x).abs = x.abs := by
  show Float.ofModel (Float.Model.pack (-x).toModel.unpack.abs) =
    Float.ofModel (Float.Model.pack x.toModel.unpack.abs)
  rw [unpack_neg]
  cases x.toModel.unpack <;> rfl

end

theorem magnitude_neg (x : Float) : magnitude (-x) = magnitude x := by
  by_cases h : x.isNaN = true
  · have hself : -x = x := eq_of_unpack (by rw [unpack_neg, unpack_eq_notANumber h]; rfl)
    rw [hself]
  · have hk := magnitude_le_of_not_isNaN (Bool.eq_false_iff.2 h)
    rw [← magnitude_ofMagnitude (!isNegative x) hk, ← neg_ofMagnitude _ hk, ofMagnitude_self hk]

theorem rank_neg {x : Float} (hx : x.isNaN = false) : rank (-x) = -rank x := by
  have hk := magnitude_le_of_not_isNaN hx
  have hneg := neg_ofMagnitude (isNegative x) hk
  rw [ofMagnitude_self hk] at hneg
  rw [hneg, rank, isNegative_ofMagnitude _ hk, magnitude_ofMagnitude _ hk, rank]
  cases isNegative x <;> simp [withSign]

theorem magnitude_of_unpack_zero {x : Float} {s : Sign} (h : x.toModel.unpack = .zero s) :
    magnitude x = 0 := by
  have hshape := shape x
  rw [h] at hshape
  cases hshape
  assumption

theorem beq_iff_rank_eq {x y : Float} (hx : x.isNaN = false) (hy : y.isNaN = false) :
    (x == y) = true ↔ rank x = rank y := by
  have h := model_compare (shape x) (shape y) (magnitude_le_of_not_isNaN hx)
    (magnitude_le_of_not_isNaN hy)
  show x.toModel.unpack.beq y.toModel.unpack = true ↔ _
  rw [UnpackedFloat.beq, h, beq_iff_eq, Option.some_inj, compare_eq_iff_eq]
  rfl

/-! ## Opposite values -/

/-- The second value is the first one with the other sign. The signs of zeros do not count. -/
def Opposite (x y : Float) : Prop := Mirrored x.toModel.unpack y.toModel.unpack

theorem opposite_neg (x : Float) : Opposite x (-x) := by
  rw [Opposite, unpack_neg]
  exact .neg _

theorem opposite_pack {u v : UnpackedFloat} (h : Mirrored u v) :
    Opposite (Float.ofModel (Float.Model.pack u)) (Float.ofModel (Float.Model.pack v)) := by
  cases h with
  | neg => exact neg_ofModel_pack u ▸ opposite_neg _
  | zero s t =>
    cases s <;> cases t <;> exact .zero _ _

namespace Opposite

variable {x x' y y' : Float}

theorem symm (h : Opposite x y) : Opposite y x := Mirrored.symm h

theorem neg (h : Opposite x y) : Opposite (-x) (-y) := by
  rw [Opposite, unpack_neg, unpack_neg]
  exact h.neg_congr

theorem add (hx : Opposite x x') (hy : Opposite y y') : Opposite (x + y) (x' + y') :=
  opposite_pack (Mirrored.add hx hy)

theorem sub (hx : Opposite x x') (hy : Opposite y y') : Opposite (x - y) (x' - y') := by
  rw [Binary64.sub_eq_add_neg, Binary64.sub_eq_add_neg]
  exact hx.add hy.neg

theorem mul_right (h : Opposite x x') (y : Float) : Opposite (x * y) (x' * y) :=
  opposite_pack (Mirrored.mul_right h _)

theorem div_right (h : Opposite x x') (y : Float) : Opposite (x / y) (x' / y) :=
  opposite_pack (Mirrored.div_right h _)

theorem mul_self (h : Opposite x y) : y * y = x * x :=
  congrArg (fun u => Float.ofModel (Float.Model.pack u)) (Mirrored.mul_self h)

theorem eq_neg_or (h : Opposite x y) : y = -x ∨ magnitude x = 0 ∧ magnitude y = 0 := by
  unfold Opposite at h
  generalize hu : x.toModel.unpack = u, hv : y.toModel.unpack = v at h
  cases h with
  | neg => exact .inl (eq_of_unpack (by rw [unpack_neg, hu, hv]))
  | zero s t => exact .inr ⟨magnitude_of_unpack_zero hu, magnitude_of_unpack_zero hv⟩

theorem magnitude_eq (h : Opposite x y) : magnitude y = magnitude x := by
  rcases h.eq_neg_or with rfl | ⟨hx, hy⟩
  · exact magnitude_neg x
  · rw [hx, hy]

theorem isFinite_eq (h : Opposite x y) : y.isFinite = x.isFinite := by
  rw [Bool.eq_iff_iff, isFinite_iff, isFinite_iff, h.magnitude_eq]

theorem isNaN_eq (h : Opposite x y) : y.isNaN = x.isNaN := by
  rw [Bool.eq_iff_iff, isNaN_iff, isNaN_iff, h.magnitude_eq]

theorem rank_eq (h : Opposite x y) (hx : x.isNaN = false) : rank y = -rank x := by
  rcases h.eq_neg_or with rfl | ⟨hx, hy⟩
  · exact rank_neg hx
  · rw [rank, rank, hx, hy, withSign_zero, withSign_zero, neg_zero]

/-- Opposite numbers are equal but for the sign of one of them. -/
theorem beq_neg (h : Opposite x y) (hx : x.isNaN = false) : (y == -x) = true := by
  have hneg := opposite_neg x
  rw [beq_iff_rank_eq (h.isNaN_eq.trans hx) (hneg.isNaN_eq.trans hx), h.rank_eq hx, hneg.rank_eq hx]

theorem clamp {c : Float} (hc : 0 ≤ c) (h : Opposite x y) (hx : x.isNaN = false) :
    Opposite (clamp (-c) c x) (clamp (-c) c y) := by
  have hnonneg := rank_le_of_le hc
  have hc := (not_isNaN_of_le hc).2
  have hneg := opposite_neg c
  have hnegc : (-c).isNaN = false := hneg.isNaN_eq.trans hc
  have hy : y.isNaN = false := h.isNaN_eq.trans hx
  have hrank := h.rank_eq hx
  have hcrank := hneg.rank_eq hc
  rw [rank_zero] at hnonneg
  unfold Binary64.clamp
  simp only [lt_iff_rank_lt, hx, hy, hc, hnegc, hrank, hcrank]
  by_cases hlow : rank x < -rank c
  · rw [if_pos hlow, if_neg (by omega), if_pos (by omega)]
    exact hneg.symm
  · by_cases hhigh : rank c < rank x
    · rw [if_neg hlow, if_pos hhigh, if_pos (by omega)]
      exact hneg
    · rw [if_neg hlow, if_neg hhigh, if_neg (by omega), if_neg (by omega)]
      exact h

end Opposite

end SkillBoard.Binary64
