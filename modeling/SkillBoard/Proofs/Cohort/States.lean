import Mathlib.Data.FinEnum
import Mathlib.Logic.Function.Iterate
import Mathlib.SetTheory.Cardinal.Finite
import SkillBoard.Cohort.Random

/-!
# The states of the generator

No seed ever leads to the state of zeros, which the generator would not leave again, and two seeds never
lead to one state after as many words (`seeds_apart`).

* `retreat` takes a step back: every state has one state before it.
* `Draws` counts the words that a program draws, which are the steps that it moves the state on. How many a
  request draws does not depend on the state (`draws_serve`).
-/

namespace SkillBoard.Random

/-! ## Words -/

theorem toBitVec_rotateLeft {n : UInt64} (hpos : 0 < n.toNat) (hlt : n.toNat < 64) (x : UInt64) :
    (rotateLeft x n).toBitVec = x.toBitVec.rotateLeft n.toNat := by
  have hback : (2 ^ 64 - n.toNat) % 64 = 64 - n.toNat := by omega
  rw [BitVec.rotateLeft_def, Nat.mod_eq_of_lt hlt, ← hback]
  simp [rotateLeft, Nat.mod_eq_of_lt hlt]

/-- Two rotations that add up to the width give the word back. -/
theorem rotateLeft_rotateLeft {m n : UInt64} (hm : 0 < m.toNat) (hn : 0 < n.toNat)
    (h : m.toNat + n.toNat = 64) (x : UInt64) : rotateLeft (rotateLeft x m) n = x := by
  have hlt : m.toNat < 64 ∧ n.toNat < 64 := by omega
  rw [← UInt64.toBitVec_inj, toBitVec_rotateLeft hn hlt.2, toBitVec_rotateLeft hm hlt.1]
  ext i hi
  simp only [BitVec.getElem_rotateLeft, Nat.mod_eq_of_lt hlt.1, Nat.mod_eq_of_lt hlt.2]
  split_ifs
  · omega
  · congr 1
    omega
  · congr 1
    omega
  · omega

/-- A word combined with itself, shifted as a step shifts its second word. -/
def smear (x : UInt64) : UInt64 := x ^^^ x <<< 17

theorem smear_smear (x : UInt64) : smear (smear x) = x ^^^ x <<< 34 := by
  have hshift : x <<< 17 <<< 17 = x <<< 34 :=
    (UInt64.shiftLeft_add (by decide) (by decide) (by decide)).symm
  calc smear (smear x) = x ^^^ (x <<< 17 ^^^ x <<< 17) ^^^ x <<< 17 <<< 17 := by
        simp only [smear, UInt64.shiftLeft_xor, UInt64.xor_assoc]
    _ = x ^^^ x <<< 34 := by rw [UInt64.xor_self, UInt64.xor_zero, hshift]

/-- Four times is nothing, as four shifts are wider than the word. So three times takes one back. -/
theorem smear_four (x : UInt64) : smear (smear (smear (smear x))) = x := by
  have hshift : x <<< 34 <<< 34 = 0 := by
    simp [← UInt64.toBitVec_inj, ← BitVec.shiftLeft_add]
  rw [smear_smear, smear_smear, UInt64.shiftLeft_xor, hshift, UInt64.xor_zero, UInt64.xor_assoc,
    UInt64.xor_self, UInt64.xor_zero]

theorem xor_xor_cancel (x y : UInt64) : x ^^^ y ^^^ y = x := by
  rw [UInt64.xor_assoc, UInt64.xor_self, UInt64.xor_zero]

/-! ## Steps -/

/-- The step back. -/
def retreat (g : Random) : Random :=
  let d := rotateLeft g.s3 19
  let s0 := g.s0 ^^^ d
  let s1 := smear (smear (smear (g.s1 ^^^ g.s2)))
  let c := g.s1 ^^^ s1
  ⟨s0, s1, c ^^^ s0, d ^^^ s1⟩

theorem retreat_advance (g : Random) : retreat (advance g) = g := by
  obtain ⟨s0, s1, s2, s3⟩ := g
  have hd : rotateLeft (rotateLeft (s3 ^^^ s1) 45) 19 = s3 ^^^ s1 :=
    rotateLeft_rotateLeft (by decide) (by decide) (by decide) _
  -- the second and the third word share what the third was combined with
  have hs1 : s1 ^^^ (s2 ^^^ s0) ^^^ (s2 ^^^ s0 ^^^ s1 <<< 17) = smear s1 := by
    rw [← UInt64.xor_assoc, xor_xor_cancel, smear]
  have hc : s1 ^^^ (s2 ^^^ s0) ^^^ s1 = s2 ^^^ s0 := by
    rw [UInt64.xor_comm s1, xor_xor_cancel]
  simp only [retreat, advance, hd, hs1, smear_four, hc, xor_xor_cancel]

theorem advance_retreat (g : Random) : advance (retreat g) = g := by
  obtain ⟨s0, s1, s2, s3⟩ := g
  have hd : rotateLeft (rotateLeft s3 19) 45 = s3 :=
    rotateLeft_rotateLeft (by decide) (by decide) (by decide) _
  generalize hs : smear (smear (smear (s1 ^^^ s2))) = s
  have hsmear : s ^^^ s <<< 17 = s1 ^^^ s2 := by rw [← smear_four (s1 ^^^ s2), hs, smear]
  have hs1 : s ^^^ (s1 ^^^ s) = s1 := by rw [UInt64.xor_comm, xor_xor_cancel]
  have hs2 : s1 ^^^ s ^^^ s <<< 17 = s2 := by
    rw [UInt64.xor_assoc, hsmear, ← UInt64.xor_assoc, UInt64.xor_self, UInt64.zero_xor]
  simp only [retreat, advance, hs, xor_xor_cancel, hd, hs1, hs2]

/-- Every state comes after exactly one. -/
theorem advance_bijective : Function.Bijective advance :=
  Function.bijective_iff_has_inverse.2 ⟨retreat, retreat_advance, advance_retreat⟩

/-- The state of zeros. -/
def zero : Random := ⟨0, 0, 0, 0⟩

theorem advance_zero : advance zero = zero := rfl

theorem iterate_advance_zero (n : Nat) : advance^[n] zero = zero := Function.iterate_fixed advance_zero n

/-- A state as its words. -/
def words : Random ≃ UInt64 × UInt64 × UInt64 × UInt64 where
  toFun g := (g.s0, g.s1, g.s2, g.s3)
  invFun w := ⟨w.1, w.2.1, w.2.2.1, w.2.2.2⟩
  left_inv _ := rfl
  right_inv _ := rfl

theorem card_eq : Nat.card Random = 2 ^ 256 := by
  have hword : Nat.card UInt64 = 2 ^ 64 := by
    rw [Nat.card_congr FinEnum.equiv, Nat.card_eq_fintype_card, Fintype.card_fin]
    rfl
  rw [Nat.card_congr words, Nat.card_prod, Nat.card_prod, Nat.card_prod, hword]
  rfl

/-! ## Seeds -/

/-- The multiplier is odd, so it has an inverse among the words. -/
theorem spread_injective : Function.Injective spread := by
  intro x y h
  have hunit : (6364136223846793005 : UInt64) * 13877824140714322085 = 1 := by decide
  have hproduct : x * 6364136223846793005 = y * 6364136223846793005 := (UInt64.add_left_inj 1).1 h
  calc x = x * 6364136223846793005 * 13877824140714322085 := by
        rw [UInt64.mul_assoc, hunit, UInt64.mul_one]
    _ = y := by rw [hproduct, UInt64.mul_assoc, hunit, UInt64.mul_one]

theorem ofSeed_injective : Function.Injective ofSeed := by
  intro x y h
  exact spread_injective (congrArg s0 h)

/-- Zero is not followed by zero in the sequence that seeds the state. -/
theorem ofSeed_ne_zero (seed : UInt64) : ofSeed seed ≠ zero := by
  intro h
  have hfirst : spread seed = 0 := congrArg s0 h
  have hsecond : spread (spread seed) = 0 := congrArg s1 h
  rw [hfirst] at hsecond
  exact absurd hsecond (by decide)

/-! ## Draws -/

section

variable {α β : Type} {m n : Nat}

/-- The program draws `n` words, from whichever state. -/
def Draws (n : Nat) (x : StateM Random α) : Prop :=
  ∀ g, (x.run g).2 = advance^[n] g

namespace Draws

theorem pure (a : α) : Draws 0 (Pure.pure a) := fun _ => rfl

theorem bind {x : StateM Random α} {next : α → StateM Random β} (hx : Draws m x)
    (hnext : ∀ a, Draws n (next a)) : Draws (m + n) (x >>= next) := by
  intro g
  have hrun : ((x >>= next).run g).2 = ((next (x.run g).1).run (x.run g).2).2 := rfl
  rw [hrun, hnext, hx, Nat.add_comm, Function.iterate_add_apply]

theorem map {x : StateM Random α} (h : Draws n x) (k : α → β) : Draws n (k <$> x) := h

end Draws

theorem draws_word : Draws 1 word := fun _ => rfl

theorem draws_fraction : Draws 1 fraction := by
  unfold fraction
  exact draws_word.bind fun _ => .pure _

theorem draws_gauss (f : Analysis) (mean deviation : Float) : Draws 2 (gauss f mean deviation) := by
  unfold gauss
  exact draws_fraction.bind fun _ => draws_fraction.bind fun _ => .pure _

theorem draws_below (n : Nat) : Draws 1 (below n) := by
  unfold below
  exact draws_fraction.bind fun _ => .pure _

end

/-! ## Requests -/

/-- There is no number below zero. -/
def Request.hasAnswer : Request → Bool
  | .below n => n ≠ 0
  | _ => true

/-- How many words it takes to answer a request. -/
def Request.words : Request → Nat
  | .gauss _ _ => 2
  | _ => 1

/-- How many words a list of requests draws: it ends at the first that has no answer. -/
def drawn (requests : List Request) : Nat :=
  ((requests.takeWhile Request.hasAnswer).map Request.words).sum

variable {f : Analysis}

theorem answer_of_hasAnswer {r : Request} (h : r.hasAnswer = true) :
    ∃ x : StateM Random Reply, Draws r.words x ∧ answer f r = OptionT.lift x := by
  cases r with
  | word => exact ⟨_, draws_word.map _, rfl⟩
  | fraction => exact ⟨_, draws_fraction.map _, rfl⟩
  | gauss mean deviation => exact ⟨_, (draws_gauss f mean deviation).map _, rfl⟩
  | below n =>
    have hn : n ≠ 0 := by simpa [Request.hasAnswer] using h
    exact ⟨_, (draws_below n).map _, if_neg hn⟩

theorem answer_of_not_hasAnswer {r : Request} (h : r.hasAnswer = false) : answer f r = failure := by
  cases r with
  | below n =>
    have hn : n = 0 := by simpa [Request.hasAnswer] using h
    exact if_pos hn
  | word | fraction | gauss => cases h

theorem serve_cons {r : Request} {x : StateM Random Reply} (h : answer f r = OptionT.lift x)
    (rs : List Request) :
    serve f (r :: rs) = x >>= fun reply => Option.map (reply :: ·) <$> serve f rs := by
  simp [serve, h]

theorem serve_cons_of_failure {r : Request} (h : answer f r = failure) (rs : List Request) :
    serve f (r :: rs) = pure none := by
  simp [serve, h]

/-- Requests draw their words, whatever the state and the values drawn. -/
theorem draws_serve (requests : List Request) : Draws (drawn requests) (serve f requests) := by
  induction requests with
  | nil => exact .pure _
  | cons r rs ih =>
    cases hr : r.hasAnswer with
    | true =>
      obtain ⟨x, hx, hanswer⟩ := answer_of_hasAnswer (f := f) hr
      have hdrawn : drawn (r :: rs) = r.words + drawn rs := by
        rw [drawn, List.takeWhile_cons_of_pos hr, List.map_cons, List.sum_cons, drawn]
      rw [hdrawn, serve_cons hanswer]
      exact hx.bind fun _ => ih.map _
    | false =>
      have hdrawn : drawn (r :: rs) = 0 := by
        have hno : ¬ r.hasAnswer = true := by simp [hr]
        rw [drawn, List.takeWhile_cons_of_neg hno]
        rfl
      rw [hdrawn, serve_cons_of_failure (answer_of_not_hasAnswer hr)]
      exact .pure _

theorem serve_words_zero (n : Nat) :
    (serve f (List.replicate n .word)).run zero = (some (List.replicate n (.word 0)), zero) := by
  induction n with
  | zero => rfl
  | succ n ih =>
    have hrun : (serve f (List.replicate (n + 1) .word)).run zero =
        (((serve f (List.replicate n .word)).run zero).1.map (.word 0 :: ·),
          ((serve f (List.replicate n .word)).run zero).2) := by
      have hanswer : answer f .word = OptionT.lift (.word <$> word) := rfl
      rw [List.replicate_succ, serve_cons hanswer]
      rfl
    rw [hrun, ih]
    rfl

theorem iterate_advance_injective (n : Nat) : Function.Injective advance^[n] :=
  advance_bijective.injective.iterate n

theorem serve_ne_zero (requests : List Request) (seed : UInt64) :
    ((serve f requests).run (ofSeed seed)).2 ≠ zero := by
  intro h
  rw [draws_serve, ← iterate_advance_zero (drawn requests)] at h
  exact ofSeed_ne_zero seed (iterate_advance_injective _ h)

theorem serve_ne_serve {requests others : List Request} {seed other : UInt64}
    (hdrawn : drawn requests = drawn others) (hne : seed ≠ other) :
    ((serve f requests).run (ofSeed seed)).2 ≠ ((serve f others).run (ofSeed other)).2 := by
  intro h
  rw [draws_serve, draws_serve, hdrawn] at h
  exact hne (ofSeed_injective (iterate_advance_injective _ h))

/-- The states of the generator, and those that seeds lead to. -/
structure Apart (f : Analysis) : Prop where
  card_eq : Nat.card Random = 2 ^ 256
  /-- Every state comes after exactly one. -/
  advance_bijective : Function.Bijective advance
  /-- The state of zeros comes after itself, and from it all words are zero. -/
  advance_zero : advance zero = zero
  serve_words_zero : ∀ n,
    (serve f (List.replicate n .word)).run zero = (some (List.replicate n (.word 0)), zero)
  ofSeed_ne_zero : ∀ seed, ofSeed seed ≠ zero
  ofSeed_injective : Function.Injective ofSeed
  /-- Requests move the state on by as many steps as they draw words. -/
  draws_serve : ∀ requests g, ((serve f requests).run g).2 = advance^[drawn requests] g
  serve_ne_zero : ∀ requests seed, ((serve f requests).run (ofSeed seed)).2 ≠ zero
  serve_ne_serve : ∀ requests others seed other, drawn requests = drawn others → seed ≠ other →
    ((serve f requests).run (ofSeed seed)).2 ≠ ((serve f others).run (ofSeed other)).2

/-- **No seed ever leads to the state of zeros, and two seeds never lead to one state after as many
words.** -/
theorem seeds_apart (f : Analysis) : Apart f where
  card_eq := card_eq
  advance_bijective := advance_bijective
  advance_zero := advance_zero
  serve_words_zero := serve_words_zero
  ofSeed_ne_zero := ofSeed_ne_zero
  ofSeed_injective := ofSeed_injective
  draws_serve := draws_serve
  serve_ne_zero := serve_ne_zero
  serve_ne_serve _ _ _ _ := serve_ne_serve

/-- A normal draw and two words leave different seeds in different states. -/
theorem seeds_apart_normalDraw :
    drawn [.gauss 0 1] = drawn [.word, .word] ∧ (1 : UInt64) ≠ 2 ∧
      ((serve .standard [.gauss 0 1]).run (ofSeed 1)).2 ≠
        ((serve .standard [.word, .word]).run (ofSeed 2)).2 :=
  ⟨rfl, by decide, (seeds_apart .standard).serve_ne_serve _ _ _ _ rfl (by decide)⟩

end SkillBoard.Random
