import SkillBoard.Proofs.Grouping
import SkillBoard.Proofs.Session
import SkillBoard.Screen

/-!
# One account of the personas

The personas of a dataset are listed in five places: by themselves, with their counts, with their colours,
in the lines of a panel and as series of points. `Session.Accounts` says that all five list the same
personas, each once and in ascending order, that each series has its persona's points and no others, and
that colours go by rank. `personas_accounted`: so it is in every session with a dataset.

* `Dataset.personaCounts_eq`, `attentionScatter_eq`: both groupings are one `map` over the personas.
* `Dataset.flatMap_members_perm`: every student is in one group.
* `PersonaColours.colourOf_of`, `grey_notMem_palette`: there is a colour for each persona, and it is never
  the grey of an unknown one.
-/

namespace SkillBoard

/-! ## Counts and points -/

namespace Dataset

/-- The students of a persona, in source order. -/
def members (d : Dataset) (persona : Int) : List Student := d.students.filter (·.persona == persona)

theorem personas_nodup (d : Dataset) : d.personas.Nodup := d.personas_pairwise.imp ne_of_lt

theorem personaCounts_eq (d : Dataset) :
    d.personaCounts = d.personas.map fun p => (p, (d.members p).length) := by
  have h := foldl_fileUnder_eq_map Student.persona (fun _ n => n + 1) 0 d.students
  have hcount (students : List Student) :
      students.foldl (fun n _ => n + 1) 0 = students.length := by
    rw [List.foldl_add_const, Nat.one_mul, Nat.zero_add]
  simp only [hcount] at h
  exact h

theorem keys_personaCounts (d : Dataset) : d.personaCounts.map (·.1) = d.personas := by
  simp [personaCounts_eq, Function.comp_def]

theorem members_ne_nil {d : Dataset} {p : Int} (h : p ∈ d.personas) : d.members p ≠ [] := by
  obtain ⟨s, hs, hp⟩ := mem_personas.1 h
  exact List.ne_nil_of_mem (List.mem_filter.2 ⟨hs, beq_iff_eq.2 hp⟩)

/-- Every student is one of the members of one persona. -/
theorem flatMap_members_perm (d : Dataset) : (d.personas.flatMap d.members).Perm d.students := by
  rw [List.perm_iff_count]
  intro s
  have hother (p : Int) (hp : p ≠ s.persona) : (d.members p).count s = 0 := by
    refine List.count_eq_zero.2 fun hs => hp ?_
    exact (beq_iff_eq.1 (List.mem_filter.1 hs).2).symm
  have hown : (d.members s.persona).count s = d.students.count s :=
    List.count_filter (beq_self_eq_true _)
  have hsum := List.sum_map_eq_nsmul_single (l := d.personas) s.persona (fun p => (d.members p).count s)
    fun p hp _ => hother p hp
  rw [List.count_flatMap]
  refine hsum.trans ?_
  rw [hown, smul_eq_mul]
  by_cases hs : s.persona ∈ d.personas
  · rw [List.count_eq_one_of_mem d.personas_nodup hs, Nat.one_mul]
  · have hnone : s ∉ d.students := fun hmem => hs (mem_personas.2 ⟨s, hmem, rfl⟩)
    rw [List.count_eq_zero.2 hs, List.count_eq_zero.2 hnone]

theorem sum_personaCounts (d : Dataset) : (d.personaCounts.map (·.2)).sum = d.size := by
  rw [size, ← d.flatMap_members_perm.length_eq, List.length_flatMap, personaCounts_eq, List.map_map]
  rfl

/-- What a persona's students add to a plot of attention against score. -/
def points (d : Dataset) (persona : Int) : List (Float × Float) :=
  (d.members persona).map fun s => (s.attention, s.assessmentScore)

end Dataset

theorem attentionScatter_eq (d : Dataset) (colours : PersonaColours) :
    (attentionScatter d.students colours).series =
      d.personas.map fun p => ⟨personaLabel p, d.points p, colours.colourOf p⟩ := by
  have h := foldl_fileUnder_eq_map Student.persona
    (fun s ps => ps ++ [(s.attention, s.assessmentScore)]) [] d.students
  have hpoints (students : List Student) :
      students.foldl (fun ps s => ps ++ [(s.attention, s.assessmentScore)]) [] =
        students.map fun s => (s.attention, s.assessmentScore) := by
    rw [List.foldl_append_eq_append, List.nil_append, ← List.flatMap_def, ← List.map_eq_flatMap]
  simp only [hpoints] at h
  unfold attentionScatter
  simp only [h, List.map_map]
  rfl

/-! ## Colours -/

/-- A hue of the palette is never the grey of an unknown persona: one of its channels is as light as
saturation and lightness allow. -/
theorem Colour.ofHsl_ne_grey (hue : Float32) : ofHsl hue 0.75 0.55 ≠ grey := by
  have hlight : (unitClamp ((1 - ((0.55 : Float32) * 2 - 1).abs) * 0.75 +
      (0.55 - (1 - ((0.55 : Float32) * 2 - 1).abs) * 0.75 * 0.5)) * 255).toUInt8 ≠ 160 := by
    decide +kernel
  unfold ofHsl
  intro h
  simp only [grey, Colour.mk.injEq] at h
  obtain ⟨hr, hg, hb, -⟩ := h
  split_ifs at hr hg hb
  · exact hlight hr
  · exact hlight hg
  · exact hlight hg
  · exact hlight hb
  · exact hlight hb
  · exact hlight hr

@[simp]
theorem length_palette (n : Nat) : (palette n).length = n := by simp [palette]

theorem grey_notMem_palette (n : Nat) : Colour.grey ∉ palette n := by
  intro h
  obtain ⟨i, -, hi⟩ := List.mem_map.1 h
  exact Colour.ofHsl_ne_grey _ hi

namespace PersonaColours

theorem keys_of (personas : List Int) : (of personas).entries.map (·.1) = personas :=
  List.map_fst_zip (length_palette _).ge

/-- The colour of the persona at a rank is the one of the palette at that rank. -/
theorem colourOf_of {personas : List Int} (h : personas.Nodup) {i : Nat} {p : Int}
    (hp : personas[i]? = some p) :
    (palette personas.length)[i]? = some ((of personas).colourOf p) ∧
      (p, (of personas).colourOf p) ∈ (of personas).entries := by
  obtain ⟨hi, rfl⟩ := List.getElem?_eq_some_iff.1 hp
  have hi' : i < (palette personas.length).length := by simpa using hi
  have hmem : (personas[i], (palette personas.length)[i]) ∈ (of personas).entries :=
    List.mem_iff_getElem.2 ⟨i, by simpa [of] using hi, List.getElem_zip⟩
  have hlookup := lookup_of_mem ((keys_of personas).symm ▸ h) hmem
  rw [colourOf, hlookup, Option.getD_some]
  exact ⟨List.getElem?_eq_getElem _, hmem⟩

end PersonaColours

/-! ## The five lists -/

theorem personaLabel_injective : Function.Injective personaLabel := by
  intro p q h
  unfold personaLabel at h
  exact Int.repr_inj.1 ((String.append_right_inj _).1 h)

namespace Session

/-- The personas of a session with a dataset, as they are counted, listed and plotted: the same ones
everywhere, and every student under one of them. -/
structure Accounts (s : Session) (d : Dataset) : Prop where
  ascending : d.personas.Pairwise (· < ·)
  occur : ∀ p, p ∈ d.personas ↔ ∃ student ∈ d.students, student.persona = p
  counts : d.personaCounts.map (·.1) = d.personas
  legend : s.colours.entries.map (·.1) = d.personas
  panel : Screen.personas s = d.personaCounts.flatMap fun (p, n) =>
    ["●", personaLabel p ++ ": " ++ toString n ++ " students"]
  names : (attentionScatter s.students s.colours).series.map (·.name) = d.personas.map personaLabel
  distinct : (d.personas.map personaLabel).Nodup
  positive : ∀ c ∈ d.personaCounts, 1 ≤ c.2
  total : (d.personaCounts.map (·.2)).sum = d.size
  /-- No point is lost, and none is there twice. -/
  points : ((attentionScatter s.students s.colours).series.flatMap (·.points)).Perm
    (d.students.map fun student => (student.attention, student.assessmentScore))
  /-- The series at a persona's rank: its students' points in source order, in its colour. -/
  series : ∀ (i : Nat) (p : Int), d.personas[i]? = some p → ∃ points colour,
    (attentionScatter s.students s.colours).series[i]? = some ⟨personaLabel p, points, colour⟩ ∧
    points = (d.students.filter (·.persona == p)).map
      (fun student => (student.attention, student.assessmentScore)) ∧
    (p, points.length) ∈ d.personaCounts ∧
    (palette d.personas.length)[i]? = some colour ∧ (p, colour) ∈ s.colours.entries ∧ colour ≠ .grey

theorem Coherent.screen_personas {s : Session} (h : s.Coherent) {d : Dataset} (hd : s.dataset = some d) :
    Screen.personas s = d.personaCounts.flatMap fun (p, n) =>
      ["●", personaLabel p ++ ": " ++ toString n ++ " students"] := by
  obtain ⟨-, -, hcolours, -⟩ := h.loaded d hd
  have hkeys : (d.personaCounts.map (·.1)).Nodup := d.keys_personaCounts ▸ d.personas_nodup
  have hentries : s.colours.entries.map (·.1) = d.personaCounts.map (·.1) := by
    rw [hcolours, PersonaColours.keys_of, d.keys_personaCounts]
  let line (p : Int) : List String :=
    ["●", personaLabel p ++ ": " ++ toString ((d.personaCounts.lookup p).getD 0) ++ " students"]
  calc Screen.personas s
      = s.colours.entries.flatMap fun c => line c.1 := by rw [Screen.personas, hd]
    _ = d.personaCounts.flatMap fun c => line c.1 := by
        rw [← List.flatMap_map, hentries, List.flatMap_map]
    _ = d.personaCounts.flatMap fun (p, n) =>
          ["●", personaLabel p ++ ": " ++ toString n ++ " students"] := by
        refine List.flatMap_congr fun c hc => ?_
        simp only [line, lookup_of_mem hkeys hc, Option.getD_some]

theorem Coherent.accounts {s : Session} (h : s.Coherent) {d : Dataset} (hd : s.dataset = some d) :
    s.Accounts d := by
  have hstudents : s.students = d.students := by rw [students, hd]; rfl
  obtain ⟨-, -, hcolours, -⟩ := h.loaded d hd
  have hseries := hstudents.symm ▸ attentionScatter_eq d s.colours
  refine
    { ascending := d.personas_pairwise
      occur := fun p => Dataset.mem_personas
      counts := d.keys_personaCounts
      legend := by rw [hcolours, PersonaColours.keys_of]
      panel := h.screen_personas hd
      names := by simp [hseries, Function.comp_def]
      distinct := d.personas_nodup.map personaLabel_injective
      positive := ?_
      total := d.sum_personaCounts
      points := ?_
      series := ?_ }
  · intro c hc
    rw [Dataset.personaCounts_eq] at hc
    obtain ⟨p, hp, rfl⟩ := List.mem_map.1 hc
    exact List.length_pos_iff.2 (Dataset.members_ne_nil hp)
  · rw [hseries, List.flatMap_map]
    have hperm := d.flatMap_members_perm.map fun student => (student.attention, student.assessmentScore)
    rwa [List.map_flatMap] at hperm
  · intro i p hp
    obtain ⟨hpalette, hentry⟩ := PersonaColours.colourOf_of d.personas_nodup hp
    refine ⟨d.points p, s.colours.colourOf p, ?_, rfl, ?_, ?_, ?_, ?_⟩
    · rw [hseries, List.getElem?_map, hp]
      rfl
    · rw [Dataset.personaCounts_eq, Dataset.points, List.length_map]
      exact List.mem_map_of_mem (List.mem_of_getElem? hp)
    · rw [hcolours, hpalette]
    · rw [hcolours]
      exact hentry
    · rw [hcolours]
      intro hgrey
      exact grey_notMem_palette _ (hgrey ▸ List.mem_of_getElem? hpalette)

/-- **Every account of the personas is the same one**, in every session that has a dataset. -/
theorem personas_accounted (o : Opening) (ops : List Operation) {d : Dataset}
    (h : (o.session.run ops).dataset = some d) : (o.session.run ops).Accounts d :=
  ((coherent_opening o).run ops).accounts h

/-- Three students of two personas, one of them negative. -/
def threeStudents : List Student :=
  [⟨1, "Ada", 5, 50, 50, 50, 50, 80, 20, -3⟩, ⟨2, "Ben", 6, 50, 60, 50, 50, 70, 20, 2⟩,
    ⟨3, "Cleo", 7, 50, 70, 50, 50, 60, 20, -3⟩]

theorem personas_accounted_threeStudents :
    ((Opening.error "parsing JSON: no value").session.run [.load ⟨threeStudents⟩]).Accounts ⟨threeStudents⟩ ∧
    Dataset.personaCounts ⟨threeStudents⟩ = [(-3, 2), (2, 1)] :=
  ⟨personas_accounted (.error "parsing JSON: no value") [.load ⟨threeStudents⟩] rfl, by decide +kernel⟩

end Session

end SkillBoard
