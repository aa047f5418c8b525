import SkillBoard.Proofs.Cohort.Hundredths
import SkillBoard.Proofs.Cohort.Random

/-!
# What is drawn

A cohort is sixty students with ids in order, whose classes and metrics are in their ranges, metrics in
hundredths (`forall_draw`). Nothing else is needed of the generator than that its draws are finite: what is
made of them is clamped, and a value that is a number comes out of a clamp within its ends.
-/

namespace SkillBoard.Cohort

open Binary64

/-- The ends of the range of a metric. -/
def lowest : Metric → Nat
  | .engagementTime => 5
  | _ => 0

def highest : Metric → Nat
  | .engagementTime => 90
  | _ => 100

/-- What holds of the student at a place of a cohort. -/
structure Drawn (i : Nat) (s : Student) : Prop where
  id_eq : s.id = i + 1
  grade_mem : 5 ≤ s.grade ∧ s.grade ≤ 10
  metric_mem : ∀ m, InHundredths (lowest m) (highest m) (s.metric m)

theorem bounded_skill {x : Float} (h : 0 ≤ x ∧ x ≤ 100) : Bounded 7 x := by
  have hends : Bounded 7 0 ∧ Bounded 7 100 := by decide
  exact hends.1.of_mem hends.2 h.1 h.2

/-- The engagement is clamped from a finite value, whatever is drawn. -/
theorem engagement_mem {aptitude noise : Float} (haptitude : Bounded 517 aptitude)
    (hnoise : Bounded 517 noise) : 5 ≤ clamp 5 90 (35 + aptitude * 0.5 + noise) ∧
      clamp 5 90 (35 + aptitude * 0.5 + noise) ≤ 90 := by
  have hconstant : Bounded 7 35 ∧ Bounded 0 0.5 := by decide
  have hhalf := haptitude.mul (c := 517) hconstant.2 (by decide)
  have hshifted := hconstant.1.add (c := 518) hhalf (by decide)
  have hsum := hshifted.add (c := 519) hnoise (by decide)
  exact clamp_mem (by decide) (not_isNaN_of_isFinite (hsum.isFinite (by norm_num)))

/-- So is the score. -/
theorem score_mem {c a t r e noise : Float} (hc : Bounded 7 c) (ha : Bounded 7 a) (ht : Bounded 7 t)
    (hr : Bounded 7 r) (he : Bounded 7 e) (hnoise : Bounded 517 noise) :
    0 ≤ clamp 0 100 (0.3 * c + 0.25 * a + 0.2 * t + 0.15 * r + 0.3 * e + noise) ∧
      clamp 0 100 (0.3 * c + 0.25 * a + 0.2 * t + 0.15 * r + 0.3 * e + noise) ≤ 100 := by
  have hweight : Bounded 0 0.3 ∧ Bounded 0 0.25 ∧ Bounded 0 0.2 ∧ Bounded 0 0.15 := by decide
  have hpart {w x : Float} (hw : Bounded 0 w) (hx : Bounded 7 x) : Bounded 7 (w * x) :=
    hw.mul hx (by decide)
  have htwo := (hpart hweight.1 hc).add (c := 8) (hpart hweight.2.1 ha) (by decide)
  have hthree := htwo.add (c := 9) (hpart hweight.2.2.1 ht) (by decide)
  have hfour := hthree.add (c := 10) (hpart hweight.2.2.2 hr) (by decide)
  have hfive := hfour.add (c := 11) (hpart hweight.1 he) (by decide)
  have hsum := hfive.add (c := 518) hnoise (by decide)
  exact clamp_mem (by decide) (not_isNaN_of_isFinite (hsum.isFinite (by norm_num)))

section

variable {f : Analysis} (hf : f.Lawful)

include hf

/-- A skill is from 0 to 100, whatever is drawn. -/
theorem satisfiesM_skill {aptitude mean deviation : Float} (haptitude : Bounded 517 aptitude)
    (hmean : Bounded 7 mean) (hdeviation : Bounded 4 deviation) :
    SatisfiesM (fun x : Float => 0 ≤ x ∧ x ≤ 100) (skill f aptitude mean deviation) := by
  have hzero : Bounded 516 0 := by decide
  unfold skill
  apply SatisfiesM.bind (Random.satisfiesM_gauss hf hzero hdeviation)
  intro noise hnoise
  apply SatisfiesM.pure
  have hshifted := hmean.add (c := 518) haptitude (by decide)
  have hsum := hshifted.add (c := 519) hnoise (by decide)
  exact clamp_mem (by decide) (not_isNaN_of_isFinite (hsum.isFinite (by norm_num)))

/-- One student is drawn as it should be. -/
theorem satisfiesM_student (i : Nat) : SatisfiesM (Drawn i) (student f i) := by
  have hzero : Bounded 516 0 := by decide
  have hdeviation : Bounded 4 12 ∧ Bounded 4 10 ∧ Bounded 4 11 ∧ Bounded 4 8 ∧ Bounded 4 4 := by
    decide
  have hmean : Bounded 7 65 ∧ Bounded 7 60 ∧ Bounded 7 62 ∧ Bounded 7 64 := by
    decide
  unfold student
  apply SatisfiesM.bind (Random.satisfiesM_gauss hf hzero hdeviation.1)
  intro aptitude haptitude
  apply SatisfiesM.bind (satisfiesM_skill hf haptitude hmean.1 hdeviation.2.1)
  intro comprehension hcomprehension
  apply SatisfiesM.bind (satisfiesM_skill hf haptitude hmean.2.1 hdeviation.1)
  intro attention hattention
  apply SatisfiesM.bind (satisfiesM_skill hf haptitude hmean.2.2.1 hdeviation.2.2.1)
  intro focus hfocus
  apply SatisfiesM.bind (satisfiesM_skill hf haptitude hmean.2.2.2 hdeviation.2.1)
  intro retention hretention
  apply SatisfiesM.bind (Random.satisfiesM_gauss hf hzero hdeviation.2.2.2.1)
  intro engagementNoise hengagementNoise
  apply SatisfiesM.bind (Random.satisfiesM_gauss hf hzero hdeviation.2.2.2.2)
  intro scoreNoise hscoreNoise
  apply SatisfiesM.bind (Random.satisfiesM_below (by norm_num))
  intro grade hgrade
  apply SatisfiesM.pure
  have hengagement := engagement_mem haptitude hengagementNoise
  have hbounded : Bounded 7 (clamp 5 90 (35 + aptitude * 0.5 + engagementNoise)) := by
    have hends : Bounded 7 5 ∧ Bounded 7 90 := by decide
    exact hends.1.of_mem hends.2 hengagement.1 hengagement.2
  have hscore := score_mem (bounded_skill hcomprehension) (bounded_skill hattention) (bounded_skill hfocus)
    (bounded_skill hretention) hbounded hscoreNoise
  have hround {x : Float} (h : 0 ≤ x ∧ x ≤ 100) : InHundredths 0 100 (round2 x) := by
    have hends : (0 : Float) = ofNat 0 ∧ (100 : Float) = ofNat 100 := by decide +kernel
    rw [hends.1, hends.2] at h
    exact inHundredths_round2 h.1 h.2 (by norm_num) le_rfl
  have hround' {x : Float} (h : 5 ≤ x ∧ x ≤ 90) : InHundredths 5 90 (round2 x) := by
    have hends : (5 : Float) = ofNat 5 ∧ (90 : Float) = ofNat 90 := by decide +kernel
    rw [hends.1, hends.2] at h
    exact inHundredths_round2 h.1 h.2 (by norm_num) (by norm_num)
  refine ⟨rfl, ?_, ?_⟩
  · simp only
    omega
  · intro m
    cases m with
    | comprehension => exact hround hcomprehension
    | attention => exact hround hattention
    | focus => exact hround hfocus
    | retention => exact hround hretention
    | assessmentScore => exact hround hscore
    | engagementTime => exact hround' hengagement

end

theorem satisfiesM_mapM {m : Type → Type} [Monad m] [LawfulMonad m] {α β : Type} {R : α → β → Prop}
    {g : α → m β} (as : List α) (h : ∀ a ∈ as, SatisfiesM (R a) (g a)) :
    SatisfiesM (List.Forall₂ R as) (as.mapM g) := by
  induction as with
  | nil =>
    rw [List.mapM_nil]
    exact SatisfiesM.pure .nil
  | cons a as ih =>
    rw [List.mapM_cons]
    apply SatisfiesM.bind (h a List.mem_cons_self)
    intro b hb
    apply SatisfiesM.bind (ih fun a ha => h a (List.mem_cons_of_mem _ ha))
    intro bs hbs
    exact SatisfiesM.pure (.cons hb hbs)

/-- All students of a cohort are as they should be, whatever the seed. -/
theorem forall_draw {f : Analysis} (hf : f.Lawful) (seed : UInt64) :
    List.Forall₂ Drawn (List.range size) (draw f seed) := by
  have hstudents := satisfiesM_mapM (List.range size) fun i _ => satisfiesM_student hf i
  rw [SatisfiesM_StateT_eq] at hstudents
  have hrun := hstudents (Random.ofSeed seed)
  rwa [SatisfiesM_Id_eq] at hrun

end SkillBoard.Cohort
