import Mathlib
import SkillBoard.Dataset

/-!
# Groups have ascending keys

Filing a value under a key adds the key and keeps the keys in ascending order, each once. So
`ascending` lists the integers of a list as a set in order, and a dataset's personas are those of its
students (`mem_personas`, `personas_pairwise`). A list that is filed by a key falls into the values of each
key, in their order (`foldl_fileUnder_eq_map`).
-/

namespace SkillBoard

variable {α : Type}

theorem mem_keys_fileUnder {key k : Int} {f : Option α → α} {groups : List (Int × α)} :
    k ∈ (fileUnder key f groups).map (·.1) ↔ k = key ∨ k ∈ groups.map (·.1) := by
  induction groups with
  | nil => simp [fileUnder]
  | cons group rest ih =>
    obtain ⟨j, a⟩ := group
    rw [fileUnder]
    split_ifs with hlt heq
    · simp
    · simp [heq]
    · rw [List.map_cons, List.mem_cons, ih, List.map_cons, List.mem_cons]
      exact or_left_comm

theorem keys_fileUnder_pairwise {key : Int} {f : Option α → α} {groups : List (Int × α)}
    (h : (groups.map (·.1)).Pairwise (· < ·)) :
    ((fileUnder key f groups).map (·.1)).Pairwise (· < ·) := by
  induction groups with
  | nil => simp [fileUnder]
  | cons group rest ih =>
    obtain ⟨j, a⟩ := group
    obtain ⟨hj, hrest⟩ := List.pairwise_cons.1 h
    rw [fileUnder]
    split_ifs with hlt heq
    · refine List.pairwise_cons.2 ⟨fun k hk => ?_, h⟩
      rcases List.mem_cons.1 hk with rfl | hk
      · exact hlt
      · exact hlt.trans (hj k hk)
    · exact h
    · refine List.pairwise_cons.2 ⟨fun k hk => ?_, ih hrest⟩
      rcases mem_keys_fileUnder.1 hk with rfl | hk
      · show j < k
        omega
      · exact hj k hk

theorem lookup_cons_of_ne {k j : Int} (h : k ≠ j) (a : α) (rest : List (Int × α)) :
    ((j, a) :: rest).lookup k = rest.lookup k := by
  rw [List.lookup_cons, beq_false_of_ne h]

theorem lookup_fileUnder {key : Int} {f : Option α → α} {groups : List (Int × α)}
    (h : (groups.map (·.1)).Pairwise (· < ·)) (k : Int) :
    (fileUnder key f groups).lookup k =
      if k = key then some (f (groups.lookup key)) else groups.lookup k := by
  induction groups with
  | nil =>
    rw [fileUnder]
    split_ifs with hk
    · rw [hk, List.lookup_cons_self, List.lookup_nil]
    · rw [lookup_cons_of_ne hk]
  | cons group rest ih =>
    obtain ⟨j, a⟩ := group
    obtain ⟨hj, hrest⟩ := List.pairwise_cons.1 h
    rw [fileUnder]
    by_cases hlt : key < j
    · -- the key is new, for all keys here are larger
      have hnone : ((j, a) :: rest).lookup key = none := by
        rw [List.lookup_eq_none_iff]
        intro p hp
        have hle : j ≤ p.1 := by
          rcases List.mem_cons.1 hp with rfl | hp
          · exact le_refl j
          · exact (hj p.1 (List.mem_map_of_mem hp)).le
        exact bne_iff_ne.2 (by omega)
      rw [if_pos hlt, hnone]
      split_ifs with hk
      · rw [hk, List.lookup_cons_self]
      · rw [lookup_cons_of_ne hk]
    · rw [if_neg hlt]
      by_cases heq : key = j
      · subst heq
        rw [if_pos rfl, List.lookup_cons_self]
        split_ifs with hk
        · rw [hk, List.lookup_cons_self]
        · rw [lookup_cons_of_ne hk, lookup_cons_of_ne hk]
      · rw [if_neg heq, lookup_cons_of_ne heq]
        by_cases hkj : k = j
        · have hk : k ≠ key := fun hk => heq (hk ▸ hkj)
          rw [if_neg hk, hkj, List.lookup_cons_self, List.lookup_cons_self]
        · rw [lookup_cons_of_ne hkj, lookup_cons_of_ne hkj, ih hrest]

/-- The keys do not depend on what is filed. -/
theorem keys_fileUnder_congr {β : Type} {key : Int} {f : Option α → α} {g : Option β → β}
    {groups : List (Int × α)} {groups' : List (Int × β)} (h : groups.map (·.1) = groups'.map (·.1)) :
    (fileUnder key f groups).map (·.1) = (fileUnder key g groups').map (·.1) := by
  induction groups generalizing groups' with
  | nil =>
    obtain rfl := List.map_eq_nil_iff.1 h.symm
    rfl
  | cons group rest ih =>
    obtain ⟨j, a⟩ := group
    obtain ⟨⟨j', b⟩, rest', rfl, rfl, hrest⟩ := List.map_eq_cons_iff.1 h.symm
    rw [fileUnder, fileUnder]
    split_ifs
    · simp [hrest]
    · simp [hrest]
    · rw [List.map_cons, List.map_cons, ih hrest.symm]

/-! ## A list filed by a key -/

section

variable {β : Type} (key : β → Int) (f : β → Option α → α)

theorem foldl_fileUnder (xs : List β) (groups : List (Int × α)) :
    (∀ k, k ∈ (xs.foldl (fun groups x => fileUnder (key x) (f x) groups) groups).map (·.1) ↔
      k ∈ xs.map key ∨ k ∈ groups.map (·.1)) ∧
    ((groups.map (·.1)).Pairwise (· < ·) →
      ((xs.foldl (fun groups x => fileUnder (key x) (f x) groups) groups).map (·.1)).Pairwise (· < ·)) := by
  induction xs generalizing groups with
  | nil => simp
  | cons x xs ih =>
    obtain ⟨hmem, hsorted⟩ := ih (fileUnder (key x) (f x) groups)
    refine ⟨fun k => ?_, fun h => hsorted (keys_fileUnder_pairwise h)⟩
    rw [List.foldl_cons, hmem, mem_keys_fileUnder, List.map_cons, List.mem_cons]
    tauto

theorem mem_ascending {keys : List Int} {k : Int} : k ∈ ascending keys ↔ k ∈ keys := by
  have h := (foldl_fileUnder id (fun _ _ => ()) keys []).1 k
  rw [List.map_id, List.map_nil] at h
  exact h.trans (or_iff_left List.not_mem_nil)

theorem ascending_pairwise (keys : List Int) : (ascending keys).Pairwise (· < ·) :=
  (foldl_fileUnder id (fun _ _ => ()) keys []).2 .nil

theorem keys_foldl_fileUnder (xs : List β) :
    (xs.foldl (fun groups x => fileUnder (key x) (f x) groups) []).map (·.1) =
      ascending (xs.map key) := by
  have hkeys (groups : List (Int × α)) (seen : List (Int × Unit))
      (h : groups.map (·.1) = seen.map (·.1)) :
      (xs.foldl (fun groups x => fileUnder (key x) (f x) groups) groups).map (·.1) =
        ((xs.map key).foldl (fun seen k => fileUnder k (fun _ => ()) seen) seen).map (·.1) := by
    induction xs generalizing groups seen with
    | nil => exact h
    | cons x xs ih => exact ih _ _ (keys_fileUnder_congr h)
  exact hkeys [] [] rfl

/-- Under a key stands what the values of that key make, in their order. -/
theorem lookup_foldl_fileUnder (xs : List β) {groups : List (Int × α)}
    (h : (groups.map (·.1)).Pairwise (· < ·)) (k : Int) :
    (xs.foldl (fun groups x => fileUnder (key x) (f x) groups) groups).lookup k =
      (xs.filter (key · == k)).foldl (fun a x => some (f x a)) (groups.lookup k) := by
  induction xs generalizing groups with
  | nil => rfl
  | cons x xs ih =>
    rw [List.foldl_cons, ih (keys_fileUnder_pairwise h), lookup_fileUnder h]
    by_cases hk : k = key x
    · rw [if_pos hk, List.filter_cons_of_pos (by simp [hk]), List.foldl_cons, hk]
    · rw [if_neg hk, List.filter_cons_of_neg (by simpa using Ne.symm hk)]

end

theorem lookup_of_mem {groups : List (Int × α)} (h : (groups.map (·.1)).Nodup) {p : Int × α}
    (hp : p ∈ groups) : groups.lookup p.1 = some p.2 := by
  obtain ⟨before, after, rfl⟩ := List.append_of_mem hp
  rw [List.map_append, List.map_cons, List.nodup_middle, List.nodup_cons] at h
  refine List.lookup_eq_some_iff.2 ⟨before, after, rfl, fun q hq => bne_iff_ne.2 fun hkey => ?_⟩
  exact h.1 (List.mem_append_left _ (hkey ▸ List.mem_map_of_mem hq))

/-- A list filed by a key, with `e` to begin each group with: each key with the values that have it, in
their order. -/
theorem foldl_fileUnder_eq_map {β : Type} (key : β → Int) (f : β → α → α) (e : α) (xs : List β) :
    xs.foldl (fun groups x => fileUnder (key x) (fun a => f x (a.getD e)) groups) [] =
      (ascending (xs.map key)).map fun k => (k, (xs.filter (key · == k)).foldl (fun a x => f x a) e) := by
  have hbegun (ys : List β) (a : Option α) : ys ≠ [] →
      ys.foldl (fun a x => some (f x (a.getD e))) a = some (ys.foldl (fun a x => f x a) (a.getD e)) := by
    induction ys generalizing a with
    | nil => exact fun h => absurd rfl h
    | cons y ys ih =>
      intro _
      rw [List.foldl_cons, List.foldl_cons]
      by_cases hys : ys = []
      · rw [hys]
        rfl
      · rw [ih _ hys]
        rfl
  generalize hgroups : xs.foldl (fun groups x => fileUnder (key x) (fun a => f x (a.getD e)) groups) [] =
    groups
  have hkeys : groups.map (·.1) = ascending (xs.map key) := by
    rw [← hgroups, keys_foldl_fileUnder key fun x a => f x (a.getD e)]
  have hnodup : (groups.map (·.1)).Nodup := by
    rw [hkeys]
    exact (ascending_pairwise _).imp ne_of_lt
  rw [← hkeys, List.map_map]
  nth_rewrite 1 [← List.map_id groups]
  refine List.map_congr_left fun p hp => ?_
  have hne : xs.filter (key · == p.1) ≠ [] := by
    have hmem : p.1 ∈ xs.map key := by
      rw [← mem_ascending, ← hkeys]
      exact List.mem_map_of_mem hp
    obtain ⟨x, hx, hkey⟩ := List.mem_map.1 hmem
    exact List.ne_nil_of_mem (List.mem_filter.2 ⟨hx, beq_iff_eq.2 hkey⟩)
  have hnil : (([] : List (Int × α)).map (·.1)).Pairwise (· < ·) := .nil
  have hlookup := lookup_foldl_fileUnder key (fun x a => f x (a.getD e)) xs hnil p.1
  rw [hgroups, lookup_of_mem hnodup hp, List.lookup_nil, hbegun _ _ hne, Option.some_inj] at hlookup
  exact Prod.ext rfl hlookup

namespace Dataset

theorem mem_personas {d : Dataset} {p : Int} : p ∈ d.personas ↔ ∃ s ∈ d.students, s.persona = p := by
  rw [personas, mem_ascending, List.mem_map]

theorem personas_pairwise (d : Dataset) : d.personas.Pairwise (· < ·) := ascending_pairwise _

end Dataset

end SkillBoard
