import Mathlib

/-!
# Runs that come to their end

A list is run through in steps that can fail. If no step fails, the run gives what the plain one gives
(`mapM_some`), and what each step passes on holds in the end (`foldlM_some`).
-/

namespace SkillBoard

variable {α β σ : Type}

theorem mapM_some {f : α → Option β} {g : α → β} {xs : List α} (h : ∀ x ∈ xs, f x = some (g x)) :
    xs.mapM f = some (xs.map g) := by
  induction xs with
  | nil => rfl
  | cons x xs ih =>
    obtain ⟨hx, hxs⟩ := List.forall_mem_cons.1 h
    rw [List.mapM_cons, hx, ih hxs]
    rfl

/-- The invariant counts the steps: it is of the state after so many of them. -/
theorem foldlM_some {f : σ → α → Option σ} {g : σ → α → σ} (P : Nat → σ → Prop) {xs : List α} {s : σ}
    {k : Nat} (hs : P k s)
    (hstep : ∀ n s, n < k + xs.length → P n s → ∀ x ∈ xs, f s x = some (g s x) ∧ P (n + 1) (g s x)) :
    xs.foldlM f s = some (xs.foldl g s) ∧ P (k + xs.length) (xs.foldl g s) := by
  induction xs generalizing s k with
  | nil => exact ⟨rfl, hs⟩
  | cons x xs ih =>
    have hlength : k + (x :: xs).length = k + 1 + xs.length := by rw [List.length_cons]; omega
    rw [hlength] at hstep ⊢
    obtain ⟨hsome, hnext⟩ := hstep k s (by omega) hs x List.mem_cons_self
    rw [List.foldlM_cons, hsome]
    exact ih hnext fun n s hn hs y hy => hstep n s hn hs y (List.mem_cons_of_mem _ hy)

end SkillBoard
