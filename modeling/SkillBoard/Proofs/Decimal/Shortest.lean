import SkillBoard.Proofs.Binary.Order
import SkillBoard.Proofs.Decimal.Value

/-!
# The shortest decimal is on the coarsest grid

If any point of a grid of the search reads back as a magnitude, one of the two around the value does
(`exists_onGrid?`): the others are farther away, and reading keeps the order. So the search goes no further
(`le_exponent_shortestMagnitude`).
-/

namespace SkillBoard.Decimal

open Binary64 (one_pos)

/-- The grid point below a value, as a quotient of two numbers. -/
theorem gridFloor_fst (steps : Nat) (e : Int) :
    (gridFloor steps e).1 = steps * 10 ^ (-e).toNat / (10 ^ e.toNat * binary64.one) := by
  unfold gridFloor
  by_cases he : 0 ≤ e
  · rw [if_pos he, Int.toNat_of_nonpos (by omega : -e ≤ 0), pow_zero, mul_one, tenPow_eq]
  · rw [if_neg he, Int.toNat_of_nonpos (by omega : e ≤ 0), pow_zero, one_mul, tenPow_eq]

section

variable {tie : Tie} {k c : Nat} {e : Int}

theorem toMagnitude_mono {c' : Nat} (h : c ≤ c') :
    toMagnitude binary64 ⟨c, e⟩ ≤ toMagnitude binary64 ⟨c', e⟩ := by
  rw [toMagnitude_eq, toMagnitude_eq]
  exact BinaryFormat.nearest_mono (by positivity) (by positivity)
    (Nat.mul_le_mul_right _ (Nat.mul_le_mul_right _ h))

/-- The value lies between its two neighbours on the grid, and so does its magnitude. -/
theorem toMagnitude_neighbours (hk : k ≤ binary64.infinity) (e : Int) :
    toMagnitude binary64 ⟨(gridFloor (binary64.units k) e).1, e⟩ ≤ k ∧
      k ≤ toMagnitude binary64 ⟨(gridFloor (binary64.units k) e).1 + 1, e⟩ := by
  have hself : binary64.nearest (binary64.units k) binary64.one = k :=
    binary64.nearest_units (one_pos _) hk rfl
  have hpos : 0 < 10 ^ e.toNat * binary64.one := Nat.mul_pos (by positivity) (one_pos _)
  have hlo := Nat.div_mul_le_self (binary64.units k * 10 ^ (-e).toNat) (10 ^ e.toNat * binary64.one)
  have hhi := Nat.lt_mul_div_succ (binary64.units k * 10 ^ (-e).toNat) hpos
  rw [← gridFloor_fst] at hlo hhi
  rw [toMagnitude_eq, toMagnitude_eq]
  constructor
  · refine (BinaryFormat.nearest_mono (by positivity) (one_pos _) ?_).trans_eq hself
    rwa [mul_assoc]
  · refine hself.symm.trans_le (BinaryFormat.nearest_mono (one_pos _) (by positivity) ?_)
    rw [mul_assoc, mul_comm (_ + 1)]
    exact hhi.le

/-- If any point of the grid reads back, a neighbour of the value does. -/
theorem exists_onGrid? (hk : k ≤ binary64.infinity) (h : toMagnitude binary64 ⟨c, e⟩ = k) (tie : Tie) :
    ∃ d, onGrid? tie k e = some d := by
  obtain ⟨hbelow, habove⟩ := toMagnitude_neighbours hk e
  obtain ⟨f, hf⟩ : ∃ f, f = (gridFloor (binary64.units k) e).1 := ⟨_, rfl⟩
  rw [← hf] at hbelow habove
  have hreads : toMagnitude binary64 ⟨f, e⟩ = k ∨ toMagnitude binary64 ⟨f + 1, e⟩ = k := by
    rcases Nat.lt_or_ge f c with hlt | hle
    · exact .inr (le_antisymm (h ▸ toMagnitude_mono hlt) habove)
    · exact .inl (le_antisymm hbelow (h ▸ toMagnitude_mono hle))
  unfold onGrid?
  simp only [← hf]
  rcases hreads with hread | hread
  · split_ifs <;> exact ⟨_, rfl⟩
  · split_ifs <;> exact ⟨_, rfl⟩

theorem exponent_of_onGrid? {d : Decimal} (h : onGrid? tie k e = some d) : d.exponent = e := by
  unfold onGrid? at h
  simp only [] at h
  split_ifs at h <;> obtain rfl := Option.some.inj h <;> rfl

theorem gridStart_mono {j k : Nat} (h : j ≤ k) : gridStart j ≤ gridStart k := by
  have hlog : (binary64.units j).log2 ≤ (binary64.units k).log2 := by
    rw [Nat.log2_eq_log_two, Nat.log2_eq_log_two]
    exact Nat.log_mono_right (binary64.units_strictMono.monotone h)
  unfold gridStart
  omega

/-- The search does not go past a grid on which something reads back. -/
theorem le_exponent_shortestMagnitude (hpos : 0 < k) (hk : k ≤ binary64.infinity)
    (h : toMagnitude binary64 ⟨c, e⟩ = k) (hlo : gridStart k - 20 < e) (hhi : e ≤ gridStart k) (tie : Tie) :
    e ≤ (shortestMagnitude tie k).exponent := by
  obtain ⟨i, hi⟩ : ∃ i : Nat, e = gridStart k - i := ⟨(gridStart k - e).toNat, by omega⟩
  obtain ⟨d, hd⟩ := exists_onGrid? hk h tie
  have hmem : i ∈ List.range 20 := List.mem_range.2 (by omega)
  rw [shortestMagnitude, if_neg hpos.ne']
  generalize hfind : (List.range 20).findSome? _ = found
  cases found with
  | none =>
    have hnone := List.findSome?_eq_none_iff.1 hfind i hmem
    rw [← hi, hd] at hnone
    cases hnone
  | some d' =>
    obtain ⟨before, j, after, hrange, hj, hbefore⟩ := List.findSome?_eq_some_iff.1 hfind
    rw [Option.getD_some, exponent_of_onGrid? hj]
    have hsorted : (List.range 20).Pairwise (· < ·) := List.pairwise_lt_range
    rw [hrange, List.pairwise_append, List.pairwise_cons] at hsorted
    rw [hrange, List.mem_append, List.mem_cons] at hmem
    rcases hmem with hi' | rfl | hi'
    · have hnone := hbefore i hi'
      rw [← hi, hd] at hnone
      cases hnone
    · omega
    · have := hsorted.2.1.1 i hi'
      omega

end

end SkillBoard.Decimal
