import SkillBoard.Proofs.Binary.Arithmetic
import SkillBoard.Proofs.Binary.Integers

/-!
# Values within ranges

Away from what is not a number, `≤` and `<` are the order of the ranks. So a clamp ends in its range
(`clamp_mem`), and a value within a range is bounded by its ends (`Bounded.of_mem`).
-/

namespace SkillBoard

theorem roundHalfUp_mem {lo hi n d : Nat} (hd : 0 < d) (hlo : lo * d ≤ n) (hhi : n ≤ hi * d) :
    lo ≤ roundHalfUp n d ∧ roundHalfUp n d ≤ hi := by
  unfold roundHalfUp
  constructor
  · rw [Nat.le_div_iff_mul_le (by omega), Nat.mul_left_comm]
    omega
  · have hsucc : hi.succ * d = hi * d + d := Nat.succ_mul hi d
    rw [← Nat.lt_succ_iff, Nat.div_lt_iff_lt_mul (by omega), Nat.mul_left_comm]
    omega

namespace Binary64

section

variable {x y lo hi : Float}

/-- What is not a number is not below or above anything. -/
theorem not_isNaN_of_le (h : x ≤ y) : x.isNaN = false ∧ y.isNaN = false := by
  rw [le_iff_toModel] at h
  change x.toModel.unpack.isNaN = false ∧ y.toModel.unpack.isNaN = false
  generalize x.toModel.unpack = u, y.toModel.unpack = v at h ⊢
  cases u <;> cases v <;> first | exact ⟨rfl, rfl⟩ | cases h

theorem not_isNaN_of_lt (h : x < y) : x.isNaN = false ∧ y.isNaN = false := by
  change decide (x.toModel.unpack.lt y.toModel.unpack) = true at h
  change x.toModel.unpack.isNaN = false ∧ y.toModel.unpack.isNaN = false
  generalize x.toModel.unpack = u, y.toModel.unpack = v at h ⊢
  cases u <;> cases v <;> first | exact ⟨rfl, rfl⟩ | cases h

theorem rank_le_of_le (h : x ≤ y) : rank x ≤ rank y :=
  (le_iff_rank_le (not_isNaN_of_le h).1 (not_isNaN_of_le h).2).1 h

theorem le_of_not_lt (hx : x.isNaN = false) (hy : y.isNaN = false) (h : ¬ x < y) : y ≤ x := by
  rw [lt_iff_rank_lt hx hy] at h
  rw [le_iff_rank_le hy hx]
  omega

theorem le_of_lt (h : x < y) : x ≤ y := by
  obtain ⟨hx, hy⟩ := not_isNaN_of_lt h
  rw [lt_iff_rank_lt hx hy] at h
  rw [le_iff_rank_le hx hy]
  omega

theorem le_refl_of_not_isNaN {x : Float} (hx : x.isNaN = false) : x ≤ x := (le_iff_rank_le hx hx).2 le_rfl

theorem le_of_le_of_le {z : Float} (h : x ≤ y) (h' : y ≤ z) : x ≤ z := by
  rw [le_iff_rank_le (not_isNaN_of_le h).1 (not_isNaN_of_le h').2]
  exact (rank_le_of_le h).trans (rank_le_of_le h')

/-- A value that is a number comes out of a clamp within its ends. -/
theorem clamp_mem (h : lo ≤ hi) (hx : x.isNaN = false) : lo ≤ clamp lo hi x ∧ clamp lo hi x ≤ hi := by
  obtain ⟨hlo, hhi⟩ := not_isNaN_of_le h
  unfold clamp
  split_ifs with hbelow habove
  · exact ⟨le_refl_of_not_isNaN hlo, h⟩
  · exact ⟨h, le_refl_of_not_isNaN hhi⟩
  · exact ⟨le_of_not_lt hx hlo hbelow, le_of_not_lt hhi hx habove⟩

theorem natAbs_rank (x : Float) : (rank x).natAbs = magnitude x := natAbs_withSign _ _

theorem rank_zero : rank 0 = 0 := by decide

section

variable (negative : Bool) (n d : Nat)

theorem isNaN_ofRatio : (ofRatio negative n d).isNaN = false := by
  rw [Bool.eq_false_iff, ne_eq, isNaN_iff, magnitude_ofRatio]
  exact (nearest_le_infinity n d).not_gt

@[simp]
theorem rank_ofRatio : rank (ofRatio negative n d) = withSign negative (binary64.nearest n d) := by
  simp [rank]

end

/-- What is not below zero has no sign, or it is a zero. -/
theorem magnitude_eq_zero (h : 0 ≤ x) (hneg : isNegative x = true) : magnitude x = 0 := by
  have hrank := rank_le_of_le h
  rw [rank_zero, rank, withSign, if_pos hneg] at hrank
  omega

theorem magnitude_le_of_le (hx : 0 ≤ x) (h : x ≤ y) : magnitude x ≤ magnitude y := by
  have hnonneg := rank_le_of_le hx
  have hrank := rank_le_of_le h
  rw [rank_zero] at hnonneg
  rw [← natAbs_rank, ← natAbs_rank]
  omega

/-- Between two bounded values all are. -/
theorem Bounded.of_mem {b : Nat} (hlo : Bounded b lo) (hhi : Bounded b hi) (h : lo ≤ x) (h' : x ≤ hi) :
    Bounded b x := by
  have hrank := rank_le_of_le h
  have hrank' := rank_le_of_le h'
  rw [Bounded, ← natAbs_rank] at *
  omega

end

/-! ## Between whole numbers -/

/-- A quotient between two whole numbers is rounded to a value between them. -/
theorem units_ofRatio_mem {lo hi n d : Nat} (negative : Bool) (hd : 0 < d) (hlo : lo * d ≤ n)
    (hhi : n ≤ hi * d) (h : hi < 2 ^ 53) : lo * binary64.one ≤ units (ofRatio negative n d) ∧
      units (ofRatio negative n d) ≤ hi * binary64.one := by
  have hle : lo ≤ hi := Nat.le_of_mul_le_mul_right (hlo.trans hhi) hd
  rw [← units_ofNat (hle.trans_lt h), ← units_ofNat h, units, units, units, ofNat, ofNat]
  simp only [magnitude_ofRatio]
  constructor
  · apply binary64.units_strictMono.monotone
    apply BinaryFormat.nearest_mono Nat.one_pos hd
    omega
  · apply binary64.units_strictMono.monotone
    apply BinaryFormat.nearest_mono hd Nat.one_pos
    omega

theorem isFinite_ofRatio_of_le {hi n d : Nat} (negative : Bool) (hd : 0 < d) (hhi : n ≤ hi * d)
    (h : hi < 2 ^ 53) : (ofRatio negative n d).isFinite = true := by
  have hfinite := isFinite_ofNat h
  rw [ofNat, isFinite_ofRatio] at hfinite
  rw [isFinite_ofRatio]
  apply (BinaryFormat.nearest_mono hd Nat.one_pos _).trans_lt hfinite
  omega

theorem zero_le_ofNat (n : Nat) : 0 ≤ ofNat n := by
  rw [ofNat, le_iff_rank_le (by decide) (isNaN_ofRatio _ _ _), rank_zero, rank_ofRatio]
  exact Int.natCast_nonneg _

theorem units_mem {lo hi : Nat} {x : Float} (h : ofNat lo ≤ x) (h' : x ≤ ofNat hi) (hle : lo ≤ hi)
    (hhi : hi < 2 ^ 53) : lo * binary64.one ≤ units x ∧ units x ≤ hi * binary64.one := by
  have hmono := binary64.units_strictMono.monotone
  rw [← units_ofNat hhi, ← units_ofNat (hle.trans_lt hhi)]
  constructor
  · exact hmono (magnitude_le_of_le (zero_le_ofNat lo) h)
  · exact hmono (magnitude_le_of_le (le_of_le_of_le (zero_le_ofNat lo) h) h')

end Binary64

end SkillBoard
