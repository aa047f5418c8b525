import SkillBoard.Proofs.Binary.Ranges
import SkillBoard.Proofs.Sorting

/-!
# All values in one line

`lineCompare` orders all values, those that are not numbers included (`transCmp_lineCompare`). Sizes are
numbers without a sign, so along them the line is the order of the numbers (`abs_le_abs_iff`,
`lineCompare_abs`).
-/

namespace SkillBoard.Binary64

open Float.Model (UnpackedFloat)

theorem transCmp_lineCompare : Std.TransCmp lineCompare := transCmp_of_key Ord.compare lineKey fun _ _ => rfl

/-- Values compare in the line as their keys, whatever they are the keys of. -/
theorem transCmp_lineCompare_of_key {α : Type} {P : α → Prop} (key : α → Float) :
    Std.TransCmp fun a b : Subtype P => lineCompare (key a.1) (key b.1) :=
  have := transCmp_lineCompare
  transCmp_of_key lineCompare (fun a : Subtype P => key a.1) fun _ _ => rfl

theorem lineCompare_eq_lt_iff {x y : Float} : lineCompare x y = .lt ↔ lineKey x < lineKey y :=
  compare_lt_iff_lt

theorem lineCompare_ne_gt_iff {x y : Float} : lineCompare x y ≠ .gt ↔ lineKey x ≤ lineKey y :=
  compare_gt_iff_gt.not.trans not_lt

theorem abs_unpacked (negative : Bool) (k : Nat) : (unpacked negative k).abs = unpacked false k := by
  unfold unpacked
  simp only []
  split_ifs <;> rfl

theorem abs_ofMagnitude (negative : Bool) {k : Nat} (hk : k ≤ binary64.infinity) :
    (ofMagnitude negative k).abs = ofMagnitude false k := by
  have hunpack := unpack_toModel (ofMagnitude negative k)
  rw [isNegative_ofMagnitude negative hk, magnitude_ofMagnitude negative hk] at hunpack
  apply eq_of_toBits
  rw [← UInt64.toNat_inj, toNat_toBits_ofMagnitude _ hk, ← toNat_pack_unpacked _ _ hk,
    ← abs_unpacked negative, ← hunpack]
  rfl

section

variable {x y : Float} (hx : x.isNaN = false)

include hx

theorem abs_eq : x.abs = ofMagnitude false (magnitude x) := by
  have hk := magnitude_le_of_not_isNaN hx
  conv_lhs => rw [← ofMagnitude_self hk, abs_ofMagnitude _ hk]

theorem magnitude_abs : magnitude x.abs = magnitude x := by
  rw [abs_eq hx, magnitude_ofMagnitude _ (magnitude_le_of_not_isNaN hx)]

theorem isNegative_abs : isNegative x.abs = false := by
  rw [abs_eq hx, isNegative_ofMagnitude _ (magnitude_le_of_not_isNaN hx)]

theorem isNaN_abs : x.abs.isNaN = false := by
  rw [Bool.eq_false_iff, ne_eq, isNaN_iff, magnitude_abs hx]
  exact (magnitude_le_of_not_isNaN hx).not_gt

theorem rank_abs : rank x.abs = magnitude x := by
  rw [rank, isNegative_abs hx, magnitude_abs hx]
  rfl

theorem lineKey_abs : lineKey x.abs = magnitude x := by
  rw [lineKey, isNaN_abs hx, isNegative_abs hx, magnitude_abs hx]
  rfl

theorem abs_le_abs_iff (hy : y.isNaN = false) : x.abs ≤ y.abs ↔ magnitude x ≤ magnitude y := by
  rw [le_iff_rank_le (isNaN_abs hx) (isNaN_abs hy), rank_abs hx, rank_abs hy, Nat.cast_le]

theorem lineCompare_abs (hy : y.isNaN = false) :
    lineCompare x.abs y.abs = Ord.compare (magnitude x : Int) (magnitude y) := by
  rw [lineCompare, lineKey_abs hx, lineKey_abs hy]

end

end SkillBoard.Binary64
