import SkillBoard.Proofs.Binary.Line
import SkillBoard.Proofs.Cohort.Personas
import SkillBoard.Proofs.Runs

/-!
# What clustering reads and writes

Clustering reads the five skills of its students and writes their personas.

* It starts at students of three different ranks in the order of overall skill (`exists_startsAt`).
* `assignPersonas?` is the same run with each access to a list and each division by a number of members
  checked. It comes to its end, with the same students (`assignPersonas?_eq`).
* Students with the same skills get the same personas (`map_persona_congr`), and what is not a persona stays
  (`map_unassigned_assignPersonas`), so a second run changes nothing (`assignPersonas_idem`).

Nothing is asked of the skills: all values stand in one line, those that are not numbers too.
-/

namespace SkillBoard.Cohort

/-! ## Where the centroids start -/

/-- The order of overall skill of points with their places. -/
def bySkill (p q : Point × Nat) : Ordering := Binary64.lineCompare (total p.1) (total q.1)

/-- The points with their places, the least skilled first. -/
def ranked (points : List Point) : List (Point × Nat) :=
  stableSort (fun p q => bySkill p q == .lt) points.zipIdx

/-- The places of the points, that of the least skilled first. -/
def ranking (points : List Point) : List Nat := (ranked points).map Prod.snd

/-- The point at place `i` is not more skilled than that at place `j`, and if it is as skilled, it stands
further up. -/
def RanksBefore (points : List Point) (i j : Nat) : Prop :=
  ∀ p q, points[i]? = some p → points[j]? = some q →
    Binary64.lineKey (total p) ≤ Binary64.lineKey (total q) ∧
      (Binary64.lineKey (total p) = Binary64.lineKey (total q) → i < j)

theorem ranking_perm (points : List Point) : (ranking points).Perm (List.range points.length) := by
  have h : (ranking points).Perm (points.zipIdx.map Prod.snd) := (stableSort_perm _ _).map Prod.snd
  rwa [List.zipIdx_map_snd, ← List.range_eq_range'] at h

theorem getElem?_of_mem_ranked {points : List Point} {p : Point × Nat} (h : p ∈ ranked points) :
    points[p.2]? = some p.1 :=
  List.mem_zipIdx_iff_getElem?.1 ((stableSort_perm _ _).mem_iff.1 h)

theorem ranking_pairwise (points : List Point) : (ranking points).Pairwise (RanksBefore points) := by
  have harrival : points.zipIdx.Pairwise fun p q => p.2 < q.2 := by
    rw [← List.pairwise_map (f := Prod.snd), List.zipIdx_map_snd]
    exact List.pairwise_lt_range'
  have hsorted : (ranked points).Pairwise (InOrder bySkill fun p q => p.2 < q.2) :=
    pairwise_stableSort bySkill (Binary64.transCmp_lineCompare_of_key fun p : Point × Nat => total p.1)
      (P := fun _ => True) (fun _ _ => trivial) harrival
  refine List.pairwise_map.2 (hsorted.imp_of_mem fun {p q} hp hq hpq p' q' hp' hq' => ?_)
  obtain rfl := Option.some.inj ((getElem?_of_mem_ranked hp).symm.trans hp')
  obtain rfl := Option.some.inj ((getElem?_of_mem_ranked hq).symm.trans hq')
  exact ⟨Binary64.lineCompare_ne_gt_iff.1 hpq.1, fun h => hpq.2 (compare_eq_iff_eq.2 h)⟩

/-- The point at a rank is the one at the place that has the rank. -/
theorem getElem?_stableSort (points : List Point) (r : Nat) :
    (stableSort (fun p q => Binary64.lineCompare (total p) (total q) == .lt) points)[r]? =
      (ranking points)[r]?.bind fun place => points[place]? := by
  have hsorted : stableSort (fun p q => Binary64.lineCompare (total p) (total q) == .lt) points =
      (ranked points).map Prod.fst := by
    conv_lhs => rw [← List.zipIdx_map_fst 0 points, stableSort_map]
    rfl
  rw [hsorted, ranking, List.getElem?_map, List.getElem?_map, Option.bind_map]
  cases h : (ranked points)[r]? with
  | none => rfl
  | some q => exact (getElem?_of_mem_ranked (List.mem_of_getElem? h)).symm

/-- The ranks where the centroids start: a sixth, a half and five sixths of the way up. -/
def seedRank (n k : Nat) : Nat := (2 * k + 1) * n / (2 * personaCount)

theorem seedRank_lt {n k : Nat} (hn : 0 < n) (hk : k < personaCount) : seedRank n k < n := by
  unfold seedRank personaCount at *
  rw [Nat.div_lt_iff_lt_mul (by omega)]
  have : (2 * k + 1) * n ≤ 5 * n := Nat.mul_le_mul_right n (by omega)
  omega

/-- From one persona to the next it is a third of the students, which is one at least. -/
theorem seedRank_strictMono {n : Nat} (hn : personaCount ≤ n) : StrictMono (seedRank n) := by
  refine strictMono_nat_of_lt_succ fun k => ?_
  unfold seedRank personaCount at *
  rw [Nat.lt_div_iff_mul_lt (by omega)]
  have hlow := Nat.div_mul_le_self ((2 * k + 1) * n) (2 * 3)
  have hstep : (2 * (k + 1) + 1) * n = (2 * k + 1) * n + 2 * n := by ring
  omega

/-- The centroids start at the points at three places, which have three different ranks in an order by
overall skill. -/
structure StartsAt (points : List Point) (order : List Nat) (place : Fin personaCount → Fin points.length) :
    Prop where
  perm : order.Perm (List.range points.length)
  sorted : order.Pairwise (RanksBefore points)
  apart : StrictMono fun k : Fin personaCount => seedRank points.length k
  rank (k : Fin personaCount) : order[seedRank points.length k]? = some (place k : Nat)
  seeds : seeds points = List.ofFn fun k => points.get (place k)

theorem StartsAt.injective {points : List Point} {order : List Nat}
    {place : Fin personaCount → Fin points.length} (h : StartsAt points order place) :
    Function.Injective place := by
  intro j k hjk
  have hnodup : order.Nodup := h.perm.nodup_iff.2 List.nodup_range
  obtain ⟨hj, hplace⟩ := List.getElem?_eq_some_iff.1 (h.rank j)
  obtain ⟨hk, hplace'⟩ := List.getElem?_eq_some_iff.1 (h.rank k)
  exact h.apart.injective (hnodup.getElem_inj_iff.1 (hplace.trans (hjk ▸ hplace'.symm)))

theorem exists_startsAt {points : List Point} (h : personaCount ≤ points.length) :
    ∃ place, StartsAt points (ranking points) place := by
  have hlength : (ranking points).length = points.length := by
    rw [(ranking_perm points).length_eq, List.length_range]
  have hrank (k : Fin personaCount) : seedRank points.length k < (ranking points).length := by
    rw [hlength]
    exact seedRank_lt (Nat.lt_of_lt_of_le (by decide) h) k.2
  have hplace (k : Fin personaCount) :
      ∃ i : Fin points.length, (ranking points)[seedRank points.length k]? = some (i : Nat) := by
    have hmem := (ranking_perm points).mem_iff.1 (List.getElem_mem (hrank k))
    exact ⟨⟨_, List.mem_range.1 hmem⟩, List.getElem?_eq_getElem (hrank k)⟩
  choose place hplace using hplace
  refine ⟨place, ranking_perm points, ranking_pairwise points,
    fun _ _ hjk => seedRank_strictMono h hjk, hplace, ?_⟩
  rw [List.ofFn_eq_map, seeds, ← List.map_coe_finRange_eq_range, List.filterMap_map]
  refine List.filterMap_eq_map_iff_forall_eq_some.2 fun k _ => ?_
  rw [Function.comp, ← seedRank, getElem?_stableSort, hplace, Option.bind_some,
    List.getElem?_eq_getElem (place k).2]
  rfl

theorem length_seeds {points : List Point} (h : personaCount ≤ points.length) :
    (seeds points).length = personaCount := by
  obtain ⟨_, hstart⟩ := exists_startsAt h
  rw [hstart.seeds, List.length_ofFn]

/-! ## The run with every access checked -/

/-- A quotient by a count, which must not be zero. -/
def quotient? (x : Float) (count : Nat) : Option Float :=
  if count = 0 then none else some (x / Binary64.ofNat count)

def standardise? (students : List Student) : Option (List Point) :=
  let spreads := skills.map fun m => Spread.of (students.map (·.metric m))
  students.mapM fun s => (skills.map s.metric).zipIdx.mapM fun (x, k) => (spreads[k]?).map (·.score x)

def seeds? (points : List Point) : Option (List Point) :=
  (List.range personaCount).mapM fun k =>
    (ranking points)[seedRank points.length k]?.bind fun place => points[place]?

/-- The nearer of two centroids, given by their positions. -/
def nearer? (centroids : List Point) (p : Point) (best k : Nat) : Option Nat := do
  let b ← centroids[best]?
  let c ← centroids[k]?
  some (if Binary64.lineCompare (distance2 p c) (distance2 p b) == .lt then k else best)

def nearest? (centroids : List Point) (p : Point) : Option Nat :=
  (List.range' 1 (personaCount - 1)).foldlM (nearer? centroids p) 0

def centre? (members : List Point) : Option Point :=
  members.foldlM
    (fun sum p => (sum.zip p).mapM fun (c, x) => (quotient? x members.length).map (c + ·))
    (skills.map fun _ => 0)

def refine? (points centroids : List Point) : Option (List Point) := do
  let labels ← points.mapM (nearest? centroids)
  centroids.zipIdx.mapM fun (c, k) =>
    let members := ((labels.zip points).filter (·.1 == k)).map Prod.snd
    if members.isEmpty then some c else centre? members

def settled? (points : List Point) : Option (List Point) := do
  (List.range (rounds - 1)).foldlM (fun centroids _ => refine? points centroids) (← seeds? points)

/-- The students with their personas, or nothing if a list is read beyond its end or a mean is taken of no
members. The last round moves the centroids as every round does, and then nothing reads them. -/
def assignPersonas? (students : List Student) : Option (List Student) :=
  if students.length < personaCount then some students
  else do
    let points ← standardise? students
    let centroids ← settled? points
    let labels ← points.mapM (nearest? centroids)
    let _ ← refine? points centroids
    some (List.zipWith (fun s k => { s with persona := (k : Nat) }) students labels)

theorem standardise?_eq (students : List Student) : standardise? students = some (standardise students) :=
  mapM_some fun _ _ => rfl

theorem seeds?_eq {points : List Point} (h : personaCount ≤ points.length) :
    seeds? points = some (seeds points) := by
  obtain ⟨place, hstart⟩ := exists_startsAt h
  rw [hstart.seeds, List.ofFn_eq_map, seeds?, ← List.map_coe_finRange_eq_range, List.mapM_map]
  refine mapM_some fun k _ => ?_
  rw [Function.comp, hstart.rank, Option.bind_some, List.getElem?_eq_getElem (place k).2]
  rfl

section

variable {centroids : List Point} {p : Point}

theorem nearer?_eq {best q : Point × Nat} (hbest : centroids[best.2]? = some best.1)
    (hq : centroids[q.2]? = some q.1) : nearer? centroids p best.2 q.2 =
      some (if Binary64.lineCompare (distance2 p q.1) (distance2 p best.1) == .lt then q else best).2 := by
  rw [nearer?, hbest, hq]
  exact congrArg some (apply_ite Prod.snd _ _ _).symm

theorem foldlM_nearer? (best : Point × Nat) {rest : List (Point × Nat)}
    (h : ∀ q ∈ best :: rest, centroids[q.2]? = some q.1) :
    (rest.map Prod.snd).foldlM (nearer? centroids p) best.2 =
      some (rest.foldl (fun best q =>
        if Binary64.lineCompare (distance2 p q.1) (distance2 p best.1) == .lt then q else best) best).2 := by
  induction rest generalizing best with
  | nil => rfl
  | cons q rest ih =>
    obtain ⟨hbest, hq, hrest⟩ : _ ∧ _ ∧ _ := by simpa only [List.forall_mem_cons] using h
    rw [List.map_cons, List.foldlM_cons, nearer?_eq hbest hq, List.foldl_cons]
    refine ih _ (List.forall_mem_cons.2 ⟨?_, hrest⟩)
    split
    · exact hq
    · exact hbest

theorem nearest?_eq (h : centroids.length = personaCount) (p : Point) :
    nearest? centroids p = some (nearest centroids p) := by
  unfold nearest
  cases centroids with
  | nil => cases h
  | cons c rest =>
    have hplaces : (rest.zipIdx 1).map Prod.snd = List.range' 1 (personaCount - 1) := by
      rw [List.zipIdx_map_snd, ← h, List.length_cons, Nat.add_sub_cancel]
    rw [nearest?, ← hplaces, List.zipIdx_cons]
    refine foldlM_nearer? (c, 0) fun q hq => List.mem_zipIdx_iff_getElem?.1 ?_
    rwa [List.zipIdx_cons]

end

theorem centre?_eq {members : List Point} (h : members.isEmpty = false) :
    centre? members = some (centre members) := by
  have hlength : members.length ≠ 0 := mt List.length_eq_zero_iff.1 (List.isEmpty_eq_false_iff.1 h)
  have hquotient (x : Float) : quotient? x members.length = some (x / Binary64.ofNat members.length) :=
    if_neg hlength
  have hstep (sum p : Point) :
      (sum.zip p).mapM (fun (c, x) => (quotient? x members.length).map (c + ·)) =
        some (List.zipWith (fun c x => c + x / Binary64.ofNat members.length) sum p) := by
    rw [← List.map_uncurry_zip_eq_zipWith]
    refine mapM_some fun q _ => ?_
    simp only [hquotient, Option.map_some]
    rfl
  unfold centre?
  simp only [hstep]
  exact List.foldlM_pure

theorem refine?_eq {points centroids : List Point} (h : centroids.length = personaCount) :
    refine? points centroids = some (refine points centroids) := by
  have hlabels : points.mapM (nearest? centroids) = some (points.map (nearest centroids)) :=
    mapM_some fun p _ => nearest?_eq h p
  have hmembers (k : Nat) : (((points.map (nearest centroids)).zip points).filter (·.1 == k)).map Prod.snd =
      points.filter fun p => nearest centroids p == k := by
    have hzip : (points.map (nearest centroids)).zip points = points.map fun p => (nearest centroids p, p) := by
      rw [← List.zip_map', List.map_id']
    rw [hzip, List.filter_map, List.map_map]
    exact List.map_id' _
  rw [refine?, hlabels]
  refine mapM_some fun q _ => ?_
  dsimp only
  rw [hmembers]
  split_ifs with hempty
  · rfl
  · exact centre?_eq (by simpa using hempty)

theorem length_settled {points : List Point} (h : personaCount ≤ points.length) :
    (settled points).length = personaCount := by
  rw [settled, ← moved, length_moved, length_seeds h]

/-- Every round has a centroid for each persona to start from, so it comes to its end. -/
theorem foldlM_refine? {points : List Point} (h : personaCount ≤ points.length) (n : Nat) :
    (List.range n).foldlM (fun centroids _ => refine? points centroids) (seeds points) =
      some (moved points n) := by
  induction n with
  | zero => rfl
  | succ n ih =>
    have hlength : (moved points n).length = personaCount := by rw [length_moved, length_seeds h]
    rw [List.range_succ, List.foldlM_append, ih]
    simp only [List.foldlM_cons, List.foldlM_nil, Option.bind_eq_bind, Option.bind_some, refine?_eq hlength]
    rfl

theorem settled?_eq {points : List Point} (h : personaCount ≤ points.length) :
    settled? points = some (settled points) := by
  rw [settled?, seeds?_eq h]
  exact foldlM_refine? h (rounds - 1)

theorem assignPersonas?_eq (students : List Student) :
    assignPersonas? students = some (assignPersonas students) := by
  unfold assignPersonas? assignPersonas
  split_ifs with h
  · rfl
  · have hlength : personaCount ≤ (standardise students).length := by
      rw [length_standardise]
      exact not_lt.1 h
    have hcount := length_settled hlength
    have hlabels : (standardise students).mapM (nearest? (settled (standardise students))) =
        some ((standardise students).map (nearest (settled (standardise students)))) :=
      mapM_some fun p _ => nearest?_eq hcount p
    rw [standardise?_eq]
    simp only [Option.bind_eq_bind, Option.bind_some, settled?_eq hlength, hlabels, refine?_eq hcount,
      List.zipWith_map_right]

/-! ## What is read and what is written -/

theorem map_persona_assignPersonas {students : List Student} (h : personaCount ≤ students.length) :
    (assignPersonas students).map (·.persona) =
      (standardise students).map fun p => (personaOf students p : Int) := by
  rw [assignPersonas_eq h, standardise_eq, List.map_map, List.map_map]
  rfl

/-- Students with the same skills. -/
def SameSkills (s t : Student) : Prop := ∀ m ∈ skills, s.metric m = t.metric m

theorem standardise_congr {students others : List Student} (h : List.Forall₂ SameSkills students others) :
    standardise students = standardise others := by
  have hcolumn {m : Metric} (hm : m ∈ skills) : students.map (·.metric m) = others.map (·.metric m) := by
    rw [← List.forall₂_eq_eq_eq, List.forall₂_map_left_iff, List.forall₂_map_right_iff]
    exact h.imp fun _ _ hst => hst m hm
  have hspreads : (skills.map fun m => (m, Spread.of (students.map (·.metric m)))) =
      skills.map fun m => (m, Spread.of (others.map (·.metric m))) :=
    List.map_congr_left fun m hm => by rw [hcolumn hm]
  unfold standardise
  rw [hspreads, ← List.forall₂_eq_eq_eq, List.forall₂_map_left_iff, List.forall₂_map_right_iff]
  refine h.imp fun s t hst => List.map_congr_left fun q hq => ?_
  obtain ⟨m, hm, rfl⟩ := List.mem_map.1 hq
  exact congrArg (Spread.score _) (hst m hm)

theorem map_persona_congr {students others : List Student} (h : List.Forall₂ SameSkills students others)
    (hlength : personaCount ≤ students.length) :
    (assignPersonas others).map (·.persona) = (assignPersonas students).map (·.persona) := by
  rw [map_persona_assignPersonas hlength, map_persona_assignPersonas (h.length_eq ▸ hlength)]
  unfold personaOf
  rw [standardise_congr h]

theorem assignPersonas_of_few {students : List Student} (h : students.length < personaCount) :
    assignPersonas students = students := if_pos h

/-- A student but for the persona. -/
def unassigned (s : Student) : Student := { s with persona := 0 }

theorem map_unassigned_assignPersonas (students : List Student) :
    (assignPersonas students).map unassigned = students.map unassigned := by
  by_cases h : personaCount ≤ students.length
  · rw [assignPersonas_eq h, List.map_map]
    rfl
  · rw [assignPersonas_of_few (not_le.1 h)]

theorem sameSkills_assignPersonas (students : List Student) :
    List.Forall₂ SameSkills students (assignPersonas students) := by
  have hmetric {s t : Student} (h : unassigned s = unassigned t) : SameSkills s t := fun m _ => by
    have hs : (unassigned s).metric m = s.metric m := by cases m <;> rfl
    have ht : (unassigned t).metric m = t.metric m := by cases m <;> rfl
    rw [← hs, ← ht, h]
  have hall := map_unassigned_assignPersonas students
  rw [← List.forall₂_eq_eq_eq, List.forall₂_map_left_iff, List.forall₂_map_right_iff] at hall
  exact hall.flip.imp fun _ _ h => hmetric h.symm

/-- A student is what is left without the persona, and the persona. -/
theorem unassigned_persona_injective : Function.Injective fun s : Student => (unassigned s, s.persona) := by
  intro s t h
  obtain ⟨hrest, hpersona⟩ := Prod.mk.inj h
  have hself (s : Student) : { unassigned s with persona := s.persona } = s := rfl
  rw [← hself s, ← hself t, hrest, hpersona]

theorem assignPersonas_idem (students : List Student) :
    assignPersonas (assignPersonas students) = assignPersonas students := by
  by_cases h : personaCount ≤ students.length
  · apply unassigned_persona_injective.list_map
    rw [← List.zip_map', ← List.zip_map', map_unassigned_assignPersonas,
      map_persona_congr (sameSkills_assignPersonas students) h]
  · rw [assignPersonas_of_few (not_le.1 h), assignPersonas_of_few (not_le.1 h)]

theorem persona_mem_assignPersonas {students : List Student} (h : personaCount ≤ students.length) :
    ∀ s ∈ assignPersonas students, s.persona = 0 ∨ s.persona = 1 ∨ s.persona = 2 := by
  rw [assignPersonas_eq h]
  intro s hs
  obtain ⟨t, -, rfl⟩ := List.mem_map.1 hs
  have hlt : personaOf students (pointOf students t) < 3 := personaOf_lt students _
  dsimp only
  omega

/-- **Whatever the skills are, clustering comes to its end**, changes nothing but the personas, and changes
nothing twice. Fewer students than personas stay as they are. More start from students at different ranks and
get one of the personas each, which their skills determine. -/
theorem assignPersonas_frame (students : List Student) :
    assignPersonas? students = some (assignPersonas students) ∧
      (assignPersonas students).map unassigned = students.map unassigned ∧
      assignPersonas (assignPersonas students) = assignPersonas students ∧
      (students.length < personaCount → assignPersonas students = students) ∧
      (personaCount ≤ students.length →
        (∃ order place, StartsAt (standardise students) order place ∧ Function.Injective place) ∧
        (∀ s ∈ assignPersonas students, s.persona = 0 ∨ s.persona = 1 ∨ s.persona = 2) ∧
        ∀ others, List.Forall₂ SameSkills students others →
          (assignPersonas others).map (·.persona) = (assignPersonas students).map (·.persona)) := by
  refine ⟨assignPersonas?_eq students, map_unassigned_assignPersonas students, assignPersonas_idem students,
    assignPersonas_of_few, fun h => ⟨?_, persona_mem_assignPersonas h,
      fun others hothers => map_persona_congr hothers h⟩⟩
  have hpoints : personaCount ≤ (standardise students).length := by rwa [length_standardise]
  obtain ⟨place, hstart⟩ := exists_startsAt hpoints
  exact ⟨_, place, hstart, hstart.injective⟩

/-- Two students alike, one whose attention is not a number and one who was engaged for ever. -/
def unmeasured : List Student :=
  [⟨1, "Ada", 5, 50, 60, 70, 80, 90, 30, 7⟩, ⟨2, "Ben", 6, 50, 60, 70, 80, 10, 30, 0⟩,
    ⟨3, "Cem", 7, 40, 0 / 0, 50, 60, 70, 20, 1⟩, ⟨4, "Dua", 8, 90, 80, 70, 60, 50, 1 / 0, -1⟩]

/-- A student of whom all is forgotten but the skills. -/
def forgotten (s : Student) : Student :=
  { s with id := 0, name := "", grade := 0, assessmentScore := 0, persona := 0 }

theorem assignPersonas_frame_unmeasured :
    (∀ s ∈ assignPersonas unmeasured, s.persona = 0 ∨ s.persona = 1 ∨ s.persona = 2) ∧
      (assignPersonas (unmeasured.map forgotten)).map (·.persona) =
        (assignPersonas unmeasured).map (·.persona) ∧
      assignPersonas (unmeasured.take 2) = unmeasured.take 2 := by
  obtain ⟨-, -, -, -, hmany⟩ := assignPersonas_frame unmeasured
  obtain ⟨-, -, -, hfew, -⟩ := assignPersonas_frame (unmeasured.take 2)
  obtain ⟨-, hpersonas, hothers⟩ := hmany (by decide)
  refine ⟨hpersonas, hothers _ ?_, hfew (by decide)⟩
  rw [List.forall₂_map_right_iff, List.forall₂_same]
  intro s _ m hm
  fin_cases hm <;> rfl

end SkillBoard.Cohort
