import SkillBoard.Proofs.Binary.Bits
import SkillBoard.Proofs.Cohort.Clustering

/-!
# Which group is the weakest

Centroids start in the order of overall skill (`seeds_pairwise`), and each student goes to the nearest one,
the first of equally near ones (`isNearest_nearest`). Nearness is a matter of five skills and strength is
their sum, so the groups need not keep that order: the weakest student of `crossed` ends in group `1`, and
group `0` is stronger (`not_weakestFirst`).

Two groups are in order, member by member, if and only if among their members nearness follows strength
(`forall_strength_le_iff`), and then so are their means (`meanStrength_le`).
-/

namespace SkillBoard.Cohort

/-! ## The nearest centroid -/

/-- The point `p` is not as near to `d` as it is to `c`. -/
def Nearer (p c d : Point) : Prop :=
  Binary64.lineKey (distance2 p c) < Binary64.lineKey (distance2 p d)

/-- No centroid is nearer than the one at position `k`, and none before it is as near. -/
def IsNearest (centroids : List Point) (p : Point) (k : Nat) : Prop :=
  ∃ c, centroids[k]? = some c ∧ ∀ j d, centroids[j]? = some d →
    ¬ Nearer p d c ∧ (j < k → Nearer p c d)

/-- What is kept of a list is least, and less than all before it. -/
theorem foldl_least {α : Type} {key : α → Int} {place : α → Nat} {best kept : α} {rest : List α}
    (h : (best :: rest).Pairwise fun a b => place a < place b)
    (hkept : rest.foldl (fun best a => if key a < key best then a else best) best = kept) :
    ∀ a ∈ best :: rest, key kept ≤ key a ∧ (place a < place kept → key kept < key a) := by
  induction rest generalizing best with
  | nil =>
    intro a ha
    obtain rfl := List.mem_singleton.1 ha
    exact hkept ▸ ⟨le_rfl, fun hlt => absurd hlt (lt_irrefl _)⟩
  | cons b rest ih =>
    obtain ⟨hbest, hrest⟩ := List.pairwise_cons.1 h
    rw [List.foldl_cons] at hkept
    split_ifs at hkept with hlt
    · have hleast := ih hrest hkept
      obtain ⟨hb, -⟩ := hleast b List.mem_cons_self
      intro a ha
      rcases List.mem_cons.1 ha with rfl | ha
      · exact ⟨hb.trans hlt.le, fun _ => hb.trans_lt hlt⟩
      · exact hleast a ha
    · have hleast := ih (h.sublist ((List.sublist_cons_self b rest).cons_cons best)) hkept
      obtain ⟨hle, hfirst⟩ := hleast best List.mem_cons_self
      intro a ha
      rcases List.mem_cons.1 ha with rfl | ha
      · exact hleast a List.mem_cons_self
      · rcases List.mem_cons.1 ha with rfl | ha
        · -- what is kept stands behind `b`, so it is not `best`
          have hplace := hbest a List.mem_cons_self
          exact ⟨hle.trans (not_lt.1 hlt), fun h => (hfirst (hplace.trans h)).trans_le (not_lt.1 hlt)⟩
        · exact hleast a (List.mem_cons_of_mem _ ha)

theorem isNearest_nearest {centroids : List Point} (h : centroids ≠ []) (p : Point) :
    IsNearest centroids p (nearest centroids p) := by
  obtain ⟨c, rest, rfl⟩ := List.exists_cons_of_ne_nil h
  have hplaces : ((c :: rest).zipIdx).Pairwise fun a b => a.2 < b.2 := by
    rw [← List.pairwise_map (f := Prod.snd), List.zipIdx_map_snd]
    exact List.pairwise_lt_range'
  have hmem := foldl_ite_mem (fun q best : Point × Nat =>
    Binary64.lineCompare (distance2 p q.1) (distance2 p best.1) == .lt) (c, 0) (rest.zipIdx (0 + 1))
  unfold nearest
  rw [← List.zipIdx_cons] at hmem
  rw [List.zipIdx_cons]
  dsimp only
  generalize hkept : (rest.zipIdx (0 + 1)).foldl _ (c, 0) = kept at hmem ⊢
  simp only [beq_iff_eq, Binary64.lineCompare_eq_lt_iff] at hkept
  refine ⟨kept.1, List.mem_zipIdx_iff_getElem?.1 hmem, fun j d hd => ?_⟩
  have hplace : (d, j) ∈ (c :: rest).zipIdx := List.mem_zipIdx_iff_getElem?.2 hd
  obtain ⟨hle, hfirst⟩ := foldl_least hplaces hkept _ hplace
  exact ⟨not_lt.2 hle, hfirst⟩

/-! ## Strength -/

/-- The overall skill of a point, as an exact number. -/
def strength (p : Point) : ℚ := Binary64.toRat (total p)

def meanStrength (points : List Point) : ℚ := (points.map strength).sum / points.length

theorem meanStrength_le_of_forall {points : List Point} {x : ℚ} (hpoints : points ≠ [])
    (h : ∀ p ∈ points, strength p ≤ x) : meanStrength points ≤ x := by
  have hlength : (0 : ℚ) < points.length := by exact_mod_cast List.length_pos_iff.2 hpoints
  have hsum := List.sum_le_card_nsmul (points.map strength) x (List.forall_mem_map.2 h)
  rw [List.length_map, nsmul_eq_mul, mul_comm] at hsum
  exact (div_le_iff₀ hlength).2 hsum

theorem le_meanStrength_of_forall {points : List Point} {x : ℚ} (hpoints : points ≠ [])
    (h : ∀ p ∈ points, x ≤ strength p) : x ≤ meanStrength points := by
  have hlength : (0 : ℚ) < points.length := by exact_mod_cast List.length_pos_iff.2 hpoints
  have hsum := List.card_nsmul_le_sum (points.map strength) x (List.forall_mem_map.2 h)
  rw [List.length_map, nsmul_eq_mul, mul_comm] at hsum
  exact (le_div_iff₀ hlength).2 hsum

theorem meanStrength_le {points others : List Point} (hpoints : points ≠ []) (hothers : others ≠ [])
    (h : ∀ p ∈ points, ∀ q ∈ others, strength p ≤ strength q) :
    meanStrength points ≤ meanStrength others :=
  le_meanStrength_of_forall hothers fun q hq => meanStrength_le_of_forall hpoints fun p hp => h p hp q hq

/-! ## Groups -/

/-- The points that go to the centroid at position `k`. -/
def membersAt (points centroids : List Point) (k : Nat) : List Point :=
  points.filter fun p => nearest centroids p == k

theorem mem_membersAt {points centroids : List Point} {k : Nat} {p : Point} :
    p ∈ membersAt points centroids k ↔ p ∈ points ∧ nearest centroids p = k := by
  rw [membersAt, List.mem_filter, beq_iff_eq]

/-- The points of the students who get persona `k`. -/
def group (students : List Student) (k : Nat) : List Point :=
  (((assignPersonas students).zip (standardise students)).filter fun q => q.1.persona == (k : Int)).map
    Prod.snd

theorem group_eq {students : List Student} (h : personaCount ≤ students.length) (k : Nat) :
    group students k = membersAt (standardise students) (settled (standardise students)) k := by
  rw [group, assignPersonas_eq h, membersAt, standardise_eq, List.zip_map', List.filter_map, List.filter_map,
    List.map_map]
  refine congrArg (List.map _) (List.filter_congr fun s _ => ?_)
  rw [Bool.eq_iff_iff]
  simp only [Function.comp, beq_iff_eq, Nat.cast_inj]
  rfl

/-! ## Centroids that do not move any more -/

theorem refine_eq_mapIdx (points centroids : List Point) : refine points centroids =
    centroids.mapIdx fun k c =>
      if (membersAt points centroids k).isEmpty then c else centre (membersAt points centroids k) := by
  rw [List.mapIdx_eq_zipIdx_map]
  rfl

/-- If a move leaves all points in their groups, the next one moves nothing. -/
theorem refine_refine {points centroids : List Point}
    (h : ∀ p ∈ points, nearest (refine points centroids) p = nearest centroids p) :
    refine points (refine points centroids) = refine points centroids := by
  have hmembers (k : Nat) : membersAt points (refine points centroids) k = membersAt points centroids k :=
    List.filter_congr fun p hp => by rw [h p hp]
  rw [refine_eq_mapIdx points (refine points centroids)]
  simp only [hmembers]
  rw [refine_eq_mapIdx, List.mapIdx_mapIdx]
  congr 1
  funext k c
  simp only [Function.comp]
  split_ifs <;> rfl

/-- Centroids that have stopped to move points have stopped for good. -/
theorem settled_eq {points : List Point} {n : Nat} (hn : n + 1 < rounds)
    (h : ∀ p ∈ points, nearest (moved points (n + 1)) p = nearest (moved points n) p) :
    settled points = moved points (n + 1) := by
  have hstay (m : Nat) : moved points (n + 1 + m) = moved points (n + 1) := by
    induction m with
    | zero => rfl
    | succ m ih =>
      calc moved points (n + 1 + m + 1) = refine points (moved points (n + 1 + m)) := rfl
        _ = refine points (refine points (moved points n)) := by rw [ih]; rfl
        _ = moved points (n + 1) := refine_refine h
  rw [← hstay (rounds - 1 - (n + 1)), Nat.add_sub_cancel' (by omega)]
  rfl

theorem group_eq_of_stays {students : List Student} {n : Nat} (hlength : personaCount ≤ students.length)
    (hn : n + 1 < rounds)
    (h : ∀ p ∈ standardise students, nearest (moved (standardise students) (n + 1)) p =
      nearest (moved (standardise students) n) p) (k : Nat) :
    group students k = membersAt (standardise students) (moved (standardise students) n) k := by
  rw [group_eq hlength, settled_eq hn h]
  exact List.filter_congr fun p hp => by rw [h p hp]

/-! ## The order of the groups -/

/-- The centroids start in the order of overall skill. -/
theorem seeds_pairwise {points : List Point} (h : personaCount ≤ points.length) :
    (seeds points).Pairwise fun c d => Binary64.lineKey (total c) ≤ Binary64.lineKey (total d) := by
  obtain ⟨place, hstart⟩ := exists_startsAt h
  rw [hstart.seeds, List.pairwise_ofFn]
  intro j k hjk
  obtain ⟨hj, hplace⟩ := List.getElem?_eq_some_iff.1 (hstart.rank j)
  obtain ⟨hk, hplace'⟩ := List.getElem?_eq_some_iff.1 (hstart.rank k)
  have hranks := List.pairwise_iff_getElem.1 hstart.sorted _ _ hj hk (hstart.apart hjk)
  rw [hplace, hplace'] at hranks
  exact (hranks _ _ (List.getElem?_eq_getElem (place j).2) (List.getElem?_eq_getElem (place k).2)).1

section

variable {points centroids : List Point} {j k : Nat} {c d p : Point}

/-- A point of the earlier of two groups is not nearer to the centroid of the later one. -/
theorem not_nearer_of_mem (hc : centroids[j]? = some c) (hd : centroids[k]? = some d)
    (hp : p ∈ membersAt points centroids j) : ¬ Nearer p d c := by
  obtain ⟨b, hb, hnearest⟩ := isNearest_nearest (List.ne_nil_of_mem (List.mem_of_getElem? hc)) p
  rw [(mem_membersAt.1 hp).2, hc] at hb
  obtain rfl := Option.some.inj hb
  exact (hnearest k d hd).1

/-- A point of the later of two groups is nearer to its own centroid. -/
theorem nearer_of_mem (hjk : j < k) (hc : centroids[j]? = some c) (hd : centroids[k]? = some d)
    (hp : p ∈ membersAt points centroids k) : Nearer p d c := by
  obtain ⟨b, hb, hnearest⟩ := isNearest_nearest (List.ne_nil_of_mem (List.mem_of_getElem? hc)) p
  rw [(mem_membersAt.1 hp).2] at hb hnearest
  obtain rfl := Option.some.inj (hd.symm.trans hb)
  exact (hnearest j c hc).2 hjk

/-- A point that is stronger than one nearer to `d` than to `c` is nearer to `d`, too. -/
def FollowsStrength (points : List Point) (c d : Point) : Prop :=
  ∀ p ∈ points, ∀ q ∈ points, strength p < strength q → Nearer p d c → Nearer q d c

variable (points) in
/-- **Two groups are in order if and only if nearness follows strength among their members.** -/
theorem forall_strength_le_iff (hjk : j < k) (hc : centroids[j]? = some c) (hd : centroids[k]? = some d) :
    (∀ p ∈ membersAt points centroids j, ∀ q ∈ membersAt points centroids k, strength p ≤ strength q) ↔
      FollowsStrength (membersAt points centroids j ++ membersAt points centroids k) c d := by
  constructor
  · intro h p hp q hq hpq hnearer
    rcases List.mem_append.1 hq with hq | hq
    · rcases List.mem_append.1 hp with hp | hp
      · exact absurd hnearer (not_nearer_of_mem hc hd hp)
      · exact absurd (h q hq p hp) hpq.not_ge
    · exact nearer_of_mem hjk hc hd hq
  · intro h p hp q hq
    by_contra hqp
    exact not_nearer_of_mem hc hd hp (h q (List.mem_append_right _ hq) p (List.mem_append_left _ hp)
      (not_le.1 hqp) (nearer_of_mem hjk hc hd hq))

end

/-- **Persona `0` starts as the weakest, and stays so as far as nearness follows strength.** The centroids
start in the order of overall skill; each student gets the persona of the nearest of those they end at. Of two
groups the members are in order if and only if nearness follows strength among them, and then the means
are, too. -/
theorem personas_follow_nearness {students : List Student} (h : personaCount ≤ students.length) :
    ((seeds (standardise students)).Pairwise fun c d =>
        Binary64.lineKey (total c) ≤ Binary64.lineKey (total d)) ∧
      List.Forall₂ (fun s p => ∃ k : Nat, s.persona = (k : Int) ∧
          IsNearest (settled (standardise students)) p k) (assignPersonas students) (standardise students) ∧
      ∀ j k c d, j < k → (settled (standardise students))[j]? = some c →
        (settled (standardise students))[k]? = some d →
        ((∀ p ∈ group students j, ∀ q ∈ group students k, strength p ≤ strength q) ↔
          FollowsStrength (group students j ++ group students k) c d) ∧
        (FollowsStrength (group students j ++ group students k) c d →
          group students j ≠ [] → group students k ≠ [] →
          meanStrength (group students j) ≤ meanStrength (group students k)) := by
  have hpoints : personaCount ≤ (standardise students).length := by rwa [length_standardise]
  refine ⟨seeds_pairwise hpoints, ?_, fun j k c d hjk hc hd => ?_⟩
  · have hne : settled (standardise students) ≠ [] :=
      List.ne_nil_of_length_pos (by rw [length_settled hpoints]; decide)
    have hnearest (p : Point) := isNearest_nearest hne p
    rw [assignPersonas_eq h]
    unfold personaOf
    generalize settled (standardise students) = centroids at hnearest ⊢
    rw [standardise_eq, List.forall₂_map_left_iff, List.forall₂_map_right_iff, List.forall₂_same]
    exact fun s _ => ⟨_, rfl, hnearest _⟩
  · have hiff := forall_strength_le_iff (standardise students) hjk hc hd
    rw [← group_eq h, ← group_eq h] at hiff
    exact ⟨hiff, fun hfollows hj hk => meanStrength_le hj hk (hiff.2 hfollows)⟩

/-- Students who differ in all skills alike. -/
def alike : List Student :=
  [⟨1, "S", 5, 20, 20, 20, 20, 80, 20, 0⟩, ⟨2, "S", 5, 30, 30, 30, 30, 80, 30, 0⟩,
    ⟨3, "S", 5, 50, 50, 50, 50, 80, 50, 0⟩, ⟨4, "S", 5, 80, 80, 80, 80, 80, 80, 0⟩]

theorem personas_follow_nearness_alike : personaCount ≤ alike.length ∧
    meanStrength (group alike 0) ≤ meanStrength (group alike 1) := by
  have hlength : personaCount ≤ alike.length := by decide
  obtain ⟨hstays, hzero, hone, hordered⟩ : (∀ p ∈ standardise alike,
        nearest (moved (standardise alike) 1) p = nearest (moved (standardise alike) 0) p) ∧
      membersAt (standardise alike) (moved (standardise alike) 0) 0 ≠ [] ∧
      membersAt (standardise alike) (moved (standardise alike) 0) 1 ≠ [] ∧
      ∀ p ∈ membersAt (standardise alike) (moved (standardise alike) 0) 0,
        ∀ q ∈ membersAt (standardise alike) (moved (standardise alike) 0) 1, strength p ≤ strength q := by
    decide +kernel
  have hgroup := group_eq_of_stays hlength (by decide) hstays
  obtain ⟨-, -, hgroups⟩ := personas_follow_nearness hlength
  have hcount : (settled (standardise alike)).length = personaCount := length_settled (by decide)
  obtain ⟨hiff, hmean⟩ := hgroups 0 1 _ _ (by decide) (List.getElem?_eq_getElem (by rw [hcount]; decide))
    (List.getElem?_eq_getElem (by rw [hcount]; decide))
  rw [hgroup, hgroup] at hiff hmean ⊢
  exact ⟨hlength, hmean (hiff.1 hordered) hzero hone⟩

/-- Group `0` is not stronger on average than another one. -/
def WeakestFirst (students : List Student) : Prop :=
  ∀ k < personaCount, group students 0 ≠ [] → group students k ≠ [] →
    meanStrength (group students 0) ≤ meanStrength (group students k)

/-- Comprehension and attention point different ways. The third student, who is of middling strength, ends in
group `0` alone, and the second, the weakest, in group `1`. -/
def crossed : List Student :=
  [⟨1, "S", 5, 40, 20, 50, 50, 80, 50, 0⟩, ⟨2, "S", 5, 30, 10, 50, 50, 80, 50, 0⟩,
    ⟨3, "S", 5, 20, 30, 50, 50, 80, 50, 0⟩, ⟨4, "S", 5, 40, 10, 50, 50, 80, 50, 0⟩]

theorem not_weakestFirst : ¬ ∀ students : List Student, personaCount ≤ students.length →
    (∀ s ∈ students, ∀ m ∈ skills, (s.metric m).isFinite = true) → WeakestFirst students := by
  intro h
  have hweakest := h crossed (by decide) (by decide +kernel) 1 (by decide)
  obtain ⟨hstays, hzero, hone, hmean⟩ : (∀ p ∈ standardise crossed,
        nearest (moved (standardise crossed) 2) p = nearest (moved (standardise crossed) 1) p) ∧
      membersAt (standardise crossed) (moved (standardise crossed) 1) 0 ≠ [] ∧
      membersAt (standardise crossed) (moved (standardise crossed) 1) 1 ≠ [] ∧
      ¬ meanStrength (membersAt (standardise crossed) (moved (standardise crossed) 1) 0) ≤
        meanStrength (membersAt (standardise crossed) (moved (standardise crossed) 1) 1) := by
    decide +kernel
  have hgroup := group_eq_of_stays (by decide) (by decide) hstays
  rw [hgroup, hgroup] at hweakest
  exact hmean (hweakest hzero hone)

end SkillBoard.Cohort
