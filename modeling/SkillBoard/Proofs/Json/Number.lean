import SkillBoard.Json.Number
import SkillBoard.Proofs.Decimal.Text

/-!
# Numbers in JSON

As long as they fit 64 bits, digits are gathered to the number that they write, and an integer of fewer bits
is read exactly, as there is nothing to scale.

* `Significand.whole_eq`, `Significand.fraction_eq`: gathering digits.
* `unsigned?_whole`, `unsigned?_places`: reading a text without sign, by its parts.
* `number?_toString`: an integer is read from its text.
-/

namespace SkillBoard

theorem le_ofDigitChars (w : List Char) (n : Nat) : n ≤ Nat.ofDigitChars 10 w n := by
  induction w generalizing n with
  | nil => rfl
  | cons c w ih =>
    rw [Nat.ofDigitChars_cons]
    exact (by omega : n ≤ 10 * n + (c.toNat - '0'.toNat)).trans (ih _)

theorem head?_toDigits {n : Nat} (hn : 0 < n) : (Nat.toDigits 10 n).head? ≠ some '0' := by
  induction n using Nat.strong_induction_on with
  | _ n ih =>
    by_cases hlt : n < 10
    · rw [Nat.toDigits_of_lt_base hlt]
      interval_cases n <;> decide
    · rw [Nat.toDigits_of_base_le (by norm_num) (by omega),
        List.head?_append_of_ne_nil _ Nat.toDigits_ne_nil]
      exact ih (n / 10) (by omega) (by omega)

namespace Json

theorem Significand.whole_eq {w : List Char} {n : Nat} (h : Nat.ofDigitChars 10 w n < UInt64.size)
    (e : Int) : Significand.whole ⟨n, e⟩ w = ⟨Nat.ofDigitChars 10 w n, e⟩ := by
  induction w generalizing n with
  | nil => rfl
  | cons c w ih =>
    rw [Nat.ofDigitChars_cons, Nat.mul_comm] at h
    have hfits : takes ⟨n, e⟩ (c.toNat - '0'.toNat) = true :=
      decide_eq_true ((le_ofDigitChars w _).trans_lt h)
    rw [whole, if_pos hfits, ih h, Nat.ofDigitChars_cons, Nat.mul_comm]

theorem Significand.fraction_eq {w : List Char} {n : Nat} (h : Nat.ofDigitChars 10 w n < UInt64.size)
    (e : Int) : Significand.fraction ⟨n, e⟩ w = ⟨Nat.ofDigitChars 10 w n, e - w.length⟩ := by
  induction w generalizing n e with
  | nil => simp [fraction]
  | cons c w ih =>
    have he : e - 1 - w.length = e - ((w.length + 1 : Nat) : Int) := by omega
    rw [Nat.ofDigitChars_cons, Nat.mul_comm] at h
    have hfits : takes ⟨n, e⟩ (c.toNat - '0'.toNat) = true :=
      decide_eq_true ((le_ofDigitChars w _).trans_lt h)
    rw [fraction, if_pos hfits, ih h, Nat.ofDigitChars_cons, Nat.mul_comm, List.length_cons, he]

/-- Digits that may stand in front of the point. -/
structure IsWhole (w : List Char) : Prop where
  digits : IsDigits w
  ne_nil : w ≠ []
  noLeadingZero : (1 < w.length && w.head? == some '0') = false

namespace IsWhole

variable {w : List Char} (hw : IsDigits w)

include hw

theorem of_length (h : w.length = 1) : IsWhole w where
  digits := hw
  ne_nil := List.length_pos_iff.1 (by omega)
  noLeadingZero := by rw [h]; rfl

theorem first (hne : w ≠ []) : IsWhole (w.take 1) := by
  refine of_length (hw.take 1) ?_
  have hlength := List.length_pos_iff.2 hne
  rw [List.length_take]
  omega

theorem of_head? (hne : w ≠ []) (h : w.head? ≠ some '0') : IsWhole w where
  digits := hw
  ne_nil := hne
  noLeadingZero := by
    rw [Bool.and_eq_false_iff, beq_eq_false_iff_ne]
    exact .inr h

end IsWhole

theorem isWhole_toDigits (n : Nat) : IsWhole (Nat.toDigits 10 n) := by
  rcases Nat.eq_zero_or_pos n with rfl | hpos
  · exact .of_length (.toDigits 0) rfl
  · exact .of_head? (.toDigits n) Nat.toDigits_ne_nil (head?_toDigits hpos)

section

variable {w r : List Char} (hw : IsWhole w) (hr : EndsDigits r) (negative : Bool)

include hw hr

theorem unsigned?_whole (hfits : Nat.ofDigitChars 10 w 0 < UInt64.size) (hpoint : r.head? ≠ some '.') :
    unsigned? negative (w ++ r) = (exponent? r).bind fun e =>
      match e with
      | none => ofWhole? negative ⟨Nat.ofDigitChars 10 w 0, 0⟩
      | some e => real? negative ⟨Nat.ofDigitChars 10 w 0, 0⟩ e := by
  have hempty : w.isEmpty = false := List.isEmpty_eq_false_iff.2 hw.ne_nil
  unfold unsigned?
  simp only [Numeral.spanDigits_append hw.digits hr, hempty, hw.noLeadingZero, Bool.or_self,
    Bool.false_eq_true, if_false, Significand.whole_eq hfits]
  split
  next => exact absurd rfl hpoint
  next => rfl

theorem unsigned?_places {f : List Char} (hf : IsDigits f) (hne : f ≠ [])
    (hfits : Nat.ofDigitChars 10 (w ++ f) 0 < UInt64.size) :
    unsigned? negative (w ++ '.' :: (f ++ r)) = (exponent? r).bind fun e =>
      real? negative ⟨Nat.ofDigitChars 10 (w ++ f) 0, -(f.length : Int)⟩ (e.getD 0) := by
  have hempty : w.isEmpty = false := List.isEmpty_eq_false_iff.2 hw.ne_nil
  have hempty' : f.isEmpty = false := List.isEmpty_eq_false_iff.2 hne
  have hpoint : EndsDigits ('.' :: (f ++ r)) := .cons rfl _
  rw [Nat.ofDigitChars_append] at hfits ⊢
  unfold unsigned?
  simp only [Numeral.spanDigits_append hw.digits hpoint, hempty, hw.noLeadingZero, Bool.or_self,
    Bool.false_eq_true, if_false, Significand.whole_eq ((le_ofDigitChars f _).trans_lt hfits),
    Numeral.spanDigits_append hf hr, hempty', Significand.fraction_eq hfits, zero_sub]
  rfl

end

theorem unsigned?_toDigits {n : Nat} (h : n < UInt64.size) (negative : Bool) :
    unsigned? negative (Nat.toDigits 10 n) = ofWhole? negative ⟨n, 0⟩ := by
  have hvalue : Nat.ofDigitChars 10 (Nat.toDigits 10 n) 0 = n := Nat.ofDigitChars_ten_toDigits
  have hread := unsigned?_whole (isWhole_toDigits n) .nil negative (by rwa [hvalue]) (by simp)
  rwa [List.append_nil, hvalue] at hread

theorem number?_signedText {s : List Char} {a : Char} {r : List Char} (hs : s = a :: r)
    (ha : a.isDigit = true) (negative : Bool) :
    number? (signedText negative s) = unsigned? negative s := by
  subst hs
  cases negative with
  | true => rfl
  | false =>
    show number? (a :: r) = _
    unfold number?
    split
    next heq => exact absurd ((List.cons.inj heq).1 ▸ ha) (by decide)
    next => rfl

/-- **Integers are read from their texts**, if they have less than 64 bits. -/
theorem number?_toString {i : Int} (h : i.natAbs < 2 ^ 63) :
    number? (toString i).toList = some (.int i) := by
  obtain ⟨a, r, hs, ha⟩ := (numberText_toDigits i.natAbs).starts
  have hsize : i.natAbs < UInt64.size := h.trans (by decide)
  rw [toString_eq_signedText, String.toList_ofList, number?_signedText hs ha, unsigned?_toDigits hsize]
  by_cases hneg : i < 0
  · have hnonzero : i.natAbs ≠ 0 := by omega
    have hrange : ¬ 1 <<< 63 < i.natAbs := by
      rw [Nat.one_shiftLeft]
      omega
    have habs : -(i.natAbs : Int) = i := by omega
    simp only [ofWhole?, hneg, hnonzero, hrange, decide_true, Bool.not_true, ne_eq, not_true_eq_false,
      Bool.false_eq_true, or_self, if_false, habs]
  · have habs : (i.natAbs : Int) = i := by omega
    simp only [ofWhole?, hneg, decide_false, Bool.not_false, ne_eq, not_true_eq_false, if_false, if_true,
      habs]

end Json

end SkillBoard
