import Mathlib
import SkillBoard.Sorting

/-!
# Stable sorting sorts, and is stable

`pairwise_stableSort`: along the sorted list no element comes before an earlier one, and two that are
not told apart stand in their order of arrival, whatever relation `Arrived` records that order.

The comparison needs to be an order on the elements at hand only (`P`), so that values which do not
compare at all can be kept out.
-/

namespace SkillBoard

variable {α β : Type}

theorem place_perm (before : α → α → Bool) (x : α) (ys : List α) :
    (place before x ys).Perm (x :: ys) := by
  induction ys with
  | nil => exact .refl _
  | cons y ys ih =>
    rw [place]
    split
    · exact (ih.cons y).trans (.swap x y ys)
    · exact .refl _

theorem foldl_place_perm (before : α → α → Bool) (xs done : List α) :
    (xs.foldl (fun done x => place before x done) done).Perm (xs ++ done) := by
  induction xs generalizing done with
  | nil => exact .refl _
  | cons x xs ih =>
    rw [List.foldl_cons]
    exact (ih _).trans (((place_perm before x done).append_left xs).trans List.perm_middle)

theorem stableSort_perm (before : α → α → Bool) (xs : List α) : (stableSort before xs).Perm xs := by
  have h := foldl_place_perm before xs []
  rw [List.append_nil] at h
  exact (List.reverse_perm _).trans h

theorem place_map (f : α → β) (before : β → β → Bool) (x : α) (ys : List α) :
    place before (f x) (ys.map f) = (place (fun a b => before (f a) (f b)) x ys).map f := by
  induction ys with
  | nil => rfl
  | cons y ys ih =>
    rw [List.map_cons, place, place, ih]
    split <;> rfl

/-- Elements sorted by a key have their keys sorted. -/
theorem stableSort_map (f : α → β) (before : β → β → Bool) (xs : List α) :
    stableSort before (xs.map f) = (stableSort (fun a b => before (f a) (f b)) xs).map f := by
  have hfold (done : List α) :
      (xs.map f).foldl (fun done x => place before x done) (done.map f) =
        (xs.foldl (fun done x => place (fun a b => before (f a) (f b)) x done) done).map f := by
    induction xs generalizing done with
    | nil => rfl
    | cons x xs ih => rw [List.map_cons, List.foldl_cons, List.foldl_cons, place_map, ih]
  rw [stableSort, stableSort, ← List.map_nil (f := f), hfold, List.map_reverse]

/-- An order on keys is one on what has them. -/
theorem transCmp_of_key {cmp : α → α → Ordering} (order : β → β → Ordering) [Std.TransCmp order]
    (key : α → β) (h : ∀ a b, cmp a b = order (key a) (key b)) : Std.TransCmp cmp where
  eq_swap {a b} := by
    rw [h, h]
    exact Std.OrientedCmp.eq_swap
  isLE_trans {a b c} hab hbc := by
    rw [h] at hab hbc ⊢
    exact Std.TransCmp.isLE_trans hab hbc

section Stable

variable {P : α → Prop} {cmp : α → α → Ordering} {Arrived : α → α → Prop}

/-- Whether `a` may stand anywhere before `b` in a sorted list. -/
def InOrder (cmp : α → α → Ordering) (Arrived : α → α → Prop) (a b : α) : Prop :=
  cmp a b ≠ .gt ∧ (cmp a b = .eq → Arrived a b)

theorem place_inOrder (order : Std.TransCmp fun a b : Subtype P => cmp a.1 b.1) {x : α}
    {ys : List α} (hx : P x) (hys : ∀ y ∈ ys, P y) (arrived : ∀ y ∈ ys, Arrived y x)
    (sorted : ys.Pairwise fun b a => InOrder cmp Arrived a b) :
    (place (fun a b => cmp a b == .lt) x ys).Pairwise fun b a => InOrder cmp Arrived a b := by
  have swap : ∀ {a b}, P a → P b → cmp a b = (cmp b a).swap := fun {a b} ha hb =>
    order.eq_swap (a := ⟨a, ha⟩) (b := ⟨b, hb⟩)
  induction ys with
  | nil => simp [place]
  | cons y ys ih =>
    obtain ⟨hy, hrest⟩ := List.forall_mem_cons.1 hys
    obtain ⟨arrivedY, arrivedRest⟩ := List.forall_mem_cons.1 arrived
    obtain ⟨sortedY, sortedRest⟩ := List.pairwise_cons.1 sorted
    rw [place]
    split
    next hlt =>
      -- `x` comes before `y`, so it goes in further down
      refine List.pairwise_cons.2 ⟨fun z hz => ?_, ih hrest arrivedRest sortedRest⟩
      rcases List.mem_cons.1 ((place_perm _ x ys).mem_iff.1 hz) with rfl | hz
      · rw [beq_iff_eq] at hlt
        simp [InOrder, hlt]
      · exact sortedY z hz
    next hlt =>
      -- `x` stays behind `y`, and so behind all that `y` is behind of
      refine List.pairwise_cons.2 ⟨fun z hz => ?_, sorted⟩
      have hyx : (cmp y x).isLE := by
        rw [swap hy hx, Ordering.isLE_swap, Ordering.isGE_iff_ne_lt]
        exact fun h => hlt (beq_iff_eq.2 h)
      refine ⟨?_, fun _ => arrived z hz⟩
      rcases List.mem_cons.1 hz with rfl | hz
      · exact Ordering.isLE_iff_ne_gt.1 hyx
      · have hzy : (cmp z y).isLE := Ordering.isLE_iff_ne_gt.2 (sortedY z hz).1
        exact Ordering.isLE_iff_ne_gt.1 (order.isLE_trans (a := ⟨z, hrest z hz⟩) (b := ⟨y, hy⟩)
          (c := ⟨x, hx⟩) hzy hyx)

theorem foldl_place_inOrder (order : Std.TransCmp fun a b : Subtype P => cmp a.1 b.1)
    {xs done : List α} (hxs : ∀ x ∈ xs, P x) (hdone : ∀ y ∈ done, P y)
    (arrived : ∀ y ∈ done, ∀ x ∈ xs, Arrived y x) (arrival : xs.Pairwise Arrived)
    (sorted : done.Pairwise fun b a => InOrder cmp Arrived a b) :
    (xs.foldl (fun done x => place (fun a b => cmp a b == .lt) x done) done).Pairwise
      fun b a => InOrder cmp Arrived a b := by
  induction xs generalizing done with
  | nil => exact sorted
  | cons x xs ih =>
    obtain ⟨hx, hrest⟩ := List.forall_mem_cons.1 hxs
    obtain ⟨arrivalX, arrivalRest⟩ := List.pairwise_cons.1 arrival
    have hmem : ∀ y, y ∈ place (fun a b => cmp a b == .lt) x done ↔ y ∈ x :: done := fun y =>
      (place_perm _ x done).mem_iff
    refine ih hrest (fun y hy => ?_) (fun y hy z hz => ?_) arrivalRest
      (place_inOrder order hx hdone (fun y hy => arrived y hy x List.mem_cons_self) sorted)
    · rcases List.mem_cons.1 ((hmem y).1 hy) with rfl | hy
      · exact hx
      · exact hdone y hy
    · rcases List.mem_cons.1 ((hmem y).1 hy) with rfl | hy
      · exact arrivalX z hz
      · exact arrived y hy z (List.mem_cons_of_mem x hz)

/-- **The sorted list is in order, and what is not told apart keeps its order of arrival.** -/
theorem pairwise_stableSort (cmp : α → α → Ordering)
    (order : Std.TransCmp fun a b : Subtype P => cmp a.1 b.1) {xs : List α} (hxs : ∀ x ∈ xs, P x)
    (arrival : xs.Pairwise Arrived) :
    (stableSort (fun a b => cmp a b == .lt) xs).Pairwise (InOrder cmp Arrived) :=
  List.pairwise_reverse.2 (foldl_place_inOrder order hxs (by simp) (by simp) arrival .nil)

end Stable

end SkillBoard
