import SkillBoard.Decimal.Layout
import SkillBoard.Decimal.Reader
import SkillBoard.Proofs.Decimal.Value
import SkillBoard.Text.Blank

/-!
# Number texts

What is written as a number is read as the number.

* `NumberText`: what a text has to be so that its value is read from it, with a sign in front or none;
  both forms of a decimal are such texts (`NumberText.positionalText`, `NumberText.exponentText`).
* `float?_render`: every finite double is read back from its text, in every layout whose positive
  exponents have a plus sign or none.
* `float?_toString`: an integer that a double equals is read as such a double.
-/

namespace SkillBoard

/-! ## Digits -/

def IsDigits (s : List Char) : Prop := ∀ c ∈ s, c.isDigit = true

namespace IsDigits

theorem append {s t : List Char} (hs : IsDigits s) (ht : IsDigits t) : IsDigits (s ++ t) := by
  intro c hc
  rcases List.mem_append.1 hc with h | h
  · exact hs c h
  · exact ht c h

theorem zeros (n : Nat) : IsDigits (List.replicate n '0') := by
  intro c hc
  rw [List.eq_of_mem_replicate hc]
  rfl

theorem take {s : List Char} (hs : IsDigits s) (n : Nat) : IsDigits (s.take n) :=
  fun c hc => hs c (List.mem_of_mem_take hc)

theorem drop {s : List Char} (hs : IsDigits s) (n : Nat) : IsDigits (s.drop n) :=
  fun c hc => hs c (List.mem_of_mem_drop hc)

theorem toDigits (n : Nat) : IsDigits (Nat.toDigits 10 n) :=
  fun _ => Nat.isDigit_of_mem_toDigits (by norm_num) (by norm_num)

end IsDigits

/-- A text that digits cannot run into. -/
def EndsDigits (r : List Char) : Prop := ∀ c ∈ r.head?, c.isDigit = false

theorem EndsDigits.nil : EndsDigits [] := fun _ hc => nomatch hc

theorem EndsDigits.cons {c : Char} (hc : c.isDigit = false) (r : List Char) : EndsDigits (c :: r) := by
  intro a ha
  obtain rfl := Option.some.inj ha
  exact hc

namespace Numeral

theorem spanDigits_append {w r : List Char} (hw : IsDigits w) (hr : EndsDigits r) :
    spanDigits (w ++ r) = (w, r) := by
  have htake : r.takeWhile Char.isDigit = [] := by
    cases r with
    | nil => rfl
    | cons c r => rw [List.takeWhile_cons, hr c rfl]; rfl
  have hdrop : r.dropWhile Char.isDigit = r := by
    cases r with
    | nil => rfl
    | cons c r => rw [List.dropWhile_cons, hr c rfl]; rfl
  rw [spanDigits, List.span_eq_takeWhile_dropWhile, List.takeWhile_append_of_pos hw,
    List.dropWhile_append_of_pos hw, htake, hdrop, List.append_nil]

/-! ## Decimals -/

theorem decimal?_whole {w r : List Char} (hw : IsDigits w) (hne : w ≠ []) (hr : EndsDigits r)
    (hpoint : r.head? ≠ some '.') :
    decimal? (w ++ r) = (exponent? r).map fun e => ⟨Nat.ofDigitChars 10 w 0, e⟩ := by
  have hempty : w.isEmpty = false := List.isEmpty_eq_false_iff.2 hne
  unfold decimal?
  simp only [spanDigits_append hw hr]
  split
  next => exact absurd rfl hpoint
  next =>
    simp only [hempty, Bool.false_and, Bool.false_eq_true, if_false, List.append_nil, List.length_nil]
    cases exponent? r with
    | none => rfl
    | some e => simp

theorem decimal?_point {w f r : List Char} (hw : IsDigits w) (hne : w ≠ []) (hf : IsDigits f)
    (hr : EndsDigits r) : decimal? (w ++ '.' :: (f ++ r)) =
      (exponent? r).map fun e => ⟨Nat.ofDigitChars 10 (w ++ f) 0, e - f.length⟩ := by
  have hempty : w.isEmpty = false := List.isEmpty_eq_false_iff.2 hne
  have hspan : spanDigits (w ++ '.' :: (f ++ r)) = (w, '.' :: (f ++ r)) :=
    spanDigits_append hw (.cons rfl _)
  unfold decimal?
  simp only [hspan, spanDigits_append hf hr, hempty, Bool.false_and, Bool.false_eq_true, if_false]
  cases exponent? r with
  | none => rfl
  | some e => rfl

theorem decimal?_digits {w : List Char} (hw : IsDigits w) (hne : w ≠ []) :
    decimal? w = some ⟨Nat.ofDigitChars 10 w 0, 0⟩ := by
  have h := decimal?_whole hw hne .nil (by simp)
  rwa [List.append_nil] at h

theorem decimal?_places {w f : List Char} (hw : IsDigits w) (hne : w ≠ []) (hf : IsDigits f) :
    decimal? (w ++ '.' :: f) = some ⟨Nat.ofDigitChars 10 (w ++ f) 0, -(f.length : Int)⟩ := by
  have h := decimal?_point hw hne hf .nil
  rw [List.append_nil] at h
  rw [h, exponent?, Option.map_some, zero_sub]

section

variable {ds : List Char} (hds : IsDigits ds) (hne : ds ≠ [])

include hds hne

theorem exponent?_minus : exponent? ('e' :: '-' :: ds) = some (-(Nat.ofDigitChars 10 ds 0 : Int)) := by
  have hall : ds ≠ [] ∧ ds.all Char.isDigit = true := ⟨hne, List.all_eq_true.2 hds⟩
  simp [exponent?, hall]

theorem exponent?_plus : exponent? ('e' :: '+' :: ds) = some (Nat.ofDigitChars 10 ds 0 : Int) := by
  have hall : ds ≠ [] ∧ ds.all Char.isDigit = true := ⟨hne, List.all_eq_true.2 hds⟩
  simp [exponent?, hall]

theorem exponent?_digits : exponent? ('e' :: ds) = some (Nat.ofDigitChars 10 ds 0 : Int) := by
  have hall : ds ≠ [] ∧ ds.all Char.isDigit = true := ⟨hne, List.all_eq_true.2 hds⟩
  unfold exponent?
  simp only [true_or, if_true]
  split
  next => exact absurd (hds '-' List.mem_cons_self) (by decide)
  next => exact absurd (hds '+' List.mem_cons_self) (by decide)
  next => simp [hall]

end

theorem exponent?_scale {plus : String} (hplus : plus = "" ∨ plus = "+") (scale : Int) :
    exponent? ('e' :: (if 0 ≤ scale then plus.toList else ['-']) ++ Nat.toDigits 10 scale.natAbs) =
      some scale := by
  have hds := IsDigits.toDigits scale.natAbs
  have hne : Nat.toDigits 10 scale.natAbs ≠ [] := Nat.toDigits_ne_nil
  by_cases hscale : 0 ≤ scale
  · have habs : (scale.natAbs : Int) = scale := Int.natAbs_of_nonneg hscale
    rw [if_pos hscale]
    rcases hplus with rfl | rfl
    · show exponent? ('e' :: Nat.toDigits 10 scale.natAbs) = _
      rw [exponent?_digits hds hne, Nat.ofDigitChars_ten_toDigits, habs]
    · show exponent? ('e' :: '+' :: Nat.toDigits 10 scale.natAbs) = _
      rw [exponent?_plus hds hne, Nat.ofDigitChars_ten_toDigits, habs]
  · have habs : (scale.natAbs : Int) = -scale := Int.ofNat_natAbs_of_nonpos (by omega)
    rw [if_neg hscale]
    show exponent? ('e' :: '-' :: Nat.toDigits 10 scale.natAbs) = _
    rw [exponent?_minus hds hne, Nat.ofDigitChars_ten_toDigits, habs, neg_neg]

theorem toLower_of_isDigit {a : Char} (h : a.isDigit = true) : a.toLower = a := by
  have hle : a.toNat ≤ '9'.toNat := (Char.isDigit_iff_toNat.1 h).2
  have hnot : ¬ (a.val ≥ 'A'.val ∧ a.val ≤ 'Z'.val) := by
    rintro ⟨hge, -⟩
    rw [ge_iff_le, UInt32.le_iff_toNat_le] at hge
    exact absurd (hge.trans hle) (by decide)
  unfold Char.toLower
  rw [dif_neg hnot]

/-- What begins with a digit is none of the words. -/
theorem unsigned?_of_isDigit {a : Char} (h : a.isDigit = true) (negative : Bool) (r : List Char) :
    unsigned? negative (a :: r) = (decimal? (a :: r)).map (.finite negative) := by
  have hword (word : String) {b : Char} {t : List Char} (hb : word.toList = b :: t)
      (hnot : b.isDigit = false) : (a :: r).map Char.toLower ≠ word.toList := by
    rw [hb, List.map_cons, toLower_of_isDigit h]
    intro heq
    rw [(List.cons.inj heq).1, hnot] at h
    cases h
  unfold unsigned?
  rw [if_neg (hword "nan" rfl rfl), if_neg]
  rintro (heq | heq)
  · exact hword "inf" rfl rfl heq
  · exact hword "infinity" rfl rfl heq

theorem parse?_of_isDigit {a : Char} (h : a.isDigit = true) (r : List Char) :
    parse? (a :: r) = (decimal? (a :: r)).map (.finite false) := by
  unfold parse?
  split
  next heq => exact absurd ((List.cons.inj heq).1 ▸ h) (by decide)
  next heq => exact absurd ((List.cons.inj heq).1 ▸ h) (by decide)
  next => exact unsigned?_of_isDigit h false r

end Numeral

/-! ## Written numbers -/

open Numeral (decimal? parse?)

/-- The characters of number texts. -/
def IsNumberChar (a : Char) : Prop := a.isDigit = true ∨ a ∈ ['.', 'e', '-', '+']

/-- A text that is read as a number, without blanks and without a sign. -/
structure NumberText (s : List Char) (q : ℚ) : Prop where
  reads : ∃ d : Decimal, decimal? s = some d ∧ d.toRat = q
  starts : ∃ a r, s = a :: r ∧ a.isDigit = true
  chars : ∀ a ∈ s, IsNumberChar a

namespace NumberText

theorem starts_of_digits {w : List Char} (hw : IsDigits w) (hne : w ≠ []) (r : List Char) :
    ∃ a t, w ++ r = a :: t ∧ a.isDigit = true := by
  cases w with
  | nil => exact absurd rfl hne
  | cons a t => exact ⟨a, t ++ r, rfl, hw a List.mem_cons_self⟩

theorem of_digits {w : List Char} (hw : IsDigits w) (hne : w ≠ []) :
    NumberText w (Nat.ofDigitChars 10 w 0) where
  reads := ⟨_, Numeral.decimal?_digits hw hne, by simp [Decimal.toRat]⟩
  starts := by simpa using starts_of_digits hw hne []
  chars a ha := .inl (hw a ha)

theorem of_places {w f : List Char} (hw : IsDigits w) (hne : w ≠ []) (hf : IsDigits f) :
    NumberText (w ++ '.' :: f) (Nat.ofDigitChars 10 (w ++ f) 0 * 10 ^ (-(f.length : Int))) where
  reads := ⟨_, Numeral.decimal?_places hw hne hf, rfl⟩
  starts := starts_of_digits hw hne _
  chars := List.forall_mem_append.2
    ⟨fun a ha => .inl (hw a ha), List.forall_mem_cons.2 ⟨.inr (by simp), fun a ha => .inl (hf a ha)⟩⟩

variable {c : List Char}

/-- Without places behind the point: zeros follow the digits. -/
theorem positionalText_whole (hc : IsDigits c) (hne : c ≠ []) (n : Nat) (point : Bool) :
    NumberText (Decimal.positionalText c n point) (Nat.ofDigitChars 10 c 0 * 10 ^ (n : Int)) := by
  have hw : IsDigits (c ++ List.replicate n '0') := hc.append (.zeros n)
  have hwne : c ++ List.replicate n '0' ≠ [] := by simp [hne]
  have hvalue : Nat.ofDigitChars 10 (c ++ List.replicate n '0') 0 =
      10 ^ n * Nat.ofDigitChars 10 c 0 := by
    rw [Nat.ofDigitChars_append, Nat.ofDigitChars_replicate_zero]
  unfold Decimal.positionalText
  rw [if_pos (Int.natCast_nonneg n), Int.toNat_natCast]
  cases point with
  | false =>
    have h := of_digits hw hwne
    rw [hvalue] at h
    push_cast at h
    rw [mul_comm] at h
    simpa using h
  | true =>
    have hpoint : Nat.ofDigitChars 10 (c ++ List.replicate n '0' ++ ['0']) 0 =
        10 * (10 ^ n * Nat.ofDigitChars 10 c 0) := by
      rw [Nat.ofDigitChars_append, hvalue, Nat.ofDigitChars_cons, Nat.ofDigitChars_nil, Nat.sub_self,
        add_zero]
    have hq : ((10 * (10 ^ n * Nat.ofDigitChars 10 c 0) : Nat) : ℚ) * 10 ^ (-(1 : Nat) : Int) =
        Nat.ofDigitChars 10 c 0 * 10 ^ (n : Int) := by
      push_cast
      rw [zpow_neg_one, zpow_natCast]
      field_simp
    have h := of_places hw hwne (.zeros 1)
    rw [List.replicate_one, hpoint, List.length_singleton, hq] at h
    exact h

/-- With places behind the point: zeros stand in front of the digits, so that the point does not stand
first, but no more than one where the point would. -/
theorem exists_places (hc : IsDigits c) {n : Nat} (hn : 0 < n) (point : Bool) : ∃ w f,
    Decimal.positionalText c (-(n : Int)) point = w ++ '.' :: f ∧ IsDigits w ∧ w ≠ [] ∧ IsDigits f ∧
      f.length = n ∧ Nat.ofDigitChars 10 (w ++ f) 0 = Nat.ofDigitChars 10 c 0 ∧
      (w.length = 1 ∨ w.head? = c.head?) := by
  obtain ⟨padded, hpadded⟩ : ∃ padded, List.replicate (n + 1 - c.length) '0' ++ c = padded := ⟨_, rfl⟩
  have hdigits : IsDigits padded := hpadded ▸ (IsDigits.zeros _).append hc
  have hvalue : Nat.ofDigitChars 10 padded 0 = Nat.ofDigitChars 10 c 0 := by
    rw [← hpadded, Nat.ofDigitChars_append, Nat.ofDigitChars_replicate_zero, mul_zero]
  have hlength : padded.length = max (n + 1) c.length := by
    rw [← hpadded, List.length_append, List.length_replicate]
    omega
  refine ⟨padded.take (padded.length - n), padded.drop (padded.length - n), ?_, hdigits.take _, ?_,
    hdigits.drop _, ?_, ?_, ?_⟩
  · unfold Decimal.positionalText
    rw [if_neg (by omega)]
    simp only [neg_neg, Int.toNat_natCast, hpadded]
  · rw [Ne, List.take_eq_nil_iff, ← List.length_eq_zero_iff]
    omega
  · rw [List.length_drop]
    omega
  · rw [List.take_append_drop, hvalue]
  · by_cases hshort : c.length ≤ n
    · left
      rw [List.length_take]
      omega
    · right
      have hsame : padded = c := by
        rw [← hpadded, Nat.sub_eq_zero_of_le (by omega), List.replicate_zero, List.nil_append]
      rw [List.head?_take, if_neg (by omega), hsame]

theorem positionalText_places (hc : IsDigits c) {n : Nat} (hn : 0 < n) (point : Bool) :
    NumberText (Decimal.positionalText c (-(n : Int)) point)
      (Nat.ofDigitChars 10 c 0 * 10 ^ (-(n : Int))) := by
  obtain ⟨w, f, htext, hw, hne, hf, hlength, hvalue, -⟩ := exists_places hc hn point
  rw [htext, ← hvalue, ← hlength]
  exact of_places hw hne hf

theorem positionalText (hc : IsDigits c) (hne : c ≠ []) (e : Int) (point : Bool) :
    NumberText (Decimal.positionalText c e point) (Nat.ofDigitChars 10 c 0 * 10 ^ e) := by
  by_cases he : 0 ≤ e
  · obtain ⟨n, rfl⟩ := Int.eq_ofNat_of_zero_le he
    exact positionalText_whole hc hne n point
  · obtain ⟨n, hn⟩ : ∃ n : Nat, e = -(n : Int) := ⟨(-e).toNat, by omega⟩
    rw [hn]
    exact positionalText_places hc (by omega) point

theorem exponentText (hc : IsDigits c) (hne : c ≠ []) {plus : String}
    (hplus : plus = "" ∨ plus = "+") (scale : Int) :
    NumberText (Decimal.exponentText c scale plus)
      (Nat.ofDigitChars 10 c 0 * 10 ^ (scale - (c.length - 1 : Nat))) := by
  have hexp := Numeral.exponent?_scale hplus scale
  have htake : c.take 1 ≠ [] := by simp [hne]
  unfold Decimal.exponentText
  rw [List.append_assoc, List.append_assoc]
  generalize hr : 'e' :: (if 0 ≤ scale then plus.toList else ['-']) ++
    Nat.toDigits 10 scale.natAbs = r at hexp ⊢
  have hhead : r.head? = some 'e' := hr ▸ rfl
  have hends : EndsDigits r := hr ▸ .cons rfl _
  have hchars : ∀ a ∈ r, IsNumberChar a := by
    rw [← hr, List.forall_mem_append]
    refine ⟨fun a ha => .inr ?_, fun a ha => .inl (IsDigits.toDigits _ a ha)⟩
    rcases hplus with rfl | rfl <;> split at ha <;> simp at ha ⊢ <;> tauto
  refine ⟨?_, starts_of_digits (hc.take 1) htake _, ?_⟩
  · refine ⟨⟨Nat.ofDigitChars 10 c 0, scale - (c.length - 1 : Nat)⟩, ?_, rfl⟩
    by_cases hlength : c.length ≤ 1
    · have hsingle : c.take 1 = c := List.take_of_length_le hlength
      rw [if_pos hlength, List.nil_append, hsingle,
        Numeral.decimal?_whole hc hne hends (by simp [hhead]), hexp]
      simp [Nat.sub_eq_zero_of_le hlength]
    · rw [if_neg hlength, List.cons_append,
        Numeral.decimal?_point (hc.take 1) htake (hc.drop 1) hends, hexp, List.take_append_drop]
      simp
  · have hfirst : ∀ a ∈ c.take 1, IsNumberChar a := fun a ha => .inl (hc.take 1 a ha)
    have hrest : ∀ a ∈ c.drop 1, IsNumberChar a := fun a ha => .inl (hc.drop 1 a ha)
    refine List.forall_mem_append.2 ⟨hfirst, List.forall_mem_append.2 ⟨?_, hchars⟩⟩
    split
    · exact fun _ ha => nomatch ha
    · exact List.forall_mem_cons.2 ⟨.inr (by simp), hrest⟩

end NumberText

/-! ## Signed numbers and blanks -/

/-- A sign in front of a number text. -/
def signedText (negative : Bool) (s : List Char) : List Char := if negative then '-' :: s else s

theorem isBlank_of_isNumberChar {a : Char} (h : IsNumberChar a) : Text.isBlank a = false := by
  rcases h with h | h
  · have hle : 48 ≤ a.toNat ∧ a.toNat ≤ 57 := Char.isDigit_iff_toNat.1 h
    simp [Text.isBlank]
    omega
  · simp only [List.mem_cons, List.not_mem_nil, or_false] at h
    rcases h with rfl | rfl | rfl | rfl <;> rfl

theorem trimList_eq_self {s : List Char} (h : ∀ a ∈ s, Text.isBlank a = false) :
    Text.trimList s = s := by
  have hdrop {t : List Char} (ht : ∀ a ∈ t, Text.isBlank a = false) : t.dropWhile Text.isBlank = t := by
    cases t with
    | nil => rfl
    | cons a t => rw [List.dropWhile_cons, ht a List.mem_cons_self]; rfl
  rw [Text.trimList, hdrop h, hdrop (fun a ha => h a (List.mem_reverse.1 ha)), List.reverse_reverse]

section

variable {s : List Char} {d : Decimal} (h : NumberText s d.toRat) (negative : Bool)

include h

theorem isNumberChar_signedText : ∀ a ∈ signedText negative s, IsNumberChar a := by
  cases negative with
  | false => exact h.chars
  | true => exact List.forall_mem_cons.2 ⟨.inr (by simp), h.chars⟩

theorem trim_signedText : Text.trim (String.ofList (signedText negative s)) =
    String.ofList (signedText negative s) := by
  rw [Text.trim, String.toList_ofList,
    trimList_eq_self fun a ha => isBlank_of_isNumberChar (isNumberChar_signedText h negative a ha)]

theorem float?_signedText : float? (String.ofList (signedText negative s)) = some (d.toFloat negative) := by
  obtain ⟨e, hreads, he⟩ := h.reads
  obtain ⟨a, r, rfl, ha⟩ := h.starts
  have hvalue : e.toFloat negative = d.toFloat negative := by
    rw [Decimal.toFloat, Decimal.toMagnitude_congr he, Decimal.toFloat]
  have hparse : parse? (signedText negative (a :: r)) = some (.finite negative e) := by
    cases negative with
    | false =>
      show parse? (a :: r) = _
      rw [Numeral.parse?_of_isDigit ha, hreads, Option.map_some]
    | true =>
      show Numeral.unsigned? true (a :: r) = _
      rw [Numeral.unsigned?_of_isDigit ha, hreads, Option.map_some]
  rw [float?, String.toList_ofList, hparse, Option.map_some, Numeral.toFloat, hvalue]

end

/-! ## Layouts -/

namespace Decimal.Layout

variable (l : Layout)

/-- The text of a decimal. -/
def bodyText (d : Decimal) : List Char :=
  match l.positional with
  | none => positionalText d.digits d.exponent l.wholePoint
  | some (lo, hi) =>
    if lo ≤ d.scale ∧ d.scale ≤ hi then positionalText d.digits d.exponent l.wholePoint
    else exponentText d.digits d.scale l.exponentPlus

theorem finiteText_eq (x : Float) : l.finiteText x =
    signedText (Binary64.isNegative x) (l.bodyText (shortestMagnitude l.tie (Binary64.magnitude x))) := by
  unfold finiteText bodyText signedText
  rfl

variable {l} (hplus : l.exponentPlus = "" ∨ l.exponentPlus = "+")

include hplus

theorem numberText_bodyText (d : Decimal) : NumberText (l.bodyText d) d.toRat := by
  have hdigits : IsDigits d.digits := .toDigits d.coefficient
  have hne : d.digits ≠ [] := Nat.toDigits_ne_nil
  have hvalue : Nat.ofDigitChars 10 d.digits 0 = d.coefficient := Nat.ofDigitChars_ten_toDigits
  have hpositional := NumberText.positionalText hdigits hne d.exponent l.wholePoint
  have hexponent := NumberText.exponentText hdigits hne hplus d.scale
  have hscale : d.scale - (d.digits.length - 1 : Nat) = d.exponent := by
    have hpos : 0 < d.digits.length := List.length_pos_of_ne_nil hne
    unfold scale
    omega
  rw [hvalue] at hpositional
  rw [hvalue, hscale] at hexponent
  unfold bodyText
  split
  · exact hpositional
  · split
    · exact hpositional
    · exact hexponent

/-- **Texts of finite doubles read back**, bit for bit. -/
theorem float?_render {x : Float} (hx : x.isFinite = true) : float? (l.render x) = some x := by
  have hk : Binary64.magnitude x ≤ binary64.infinity := ((Binary64.isFinite_iff x).1 hx).le
  rw [render, if_pos hx, finiteText_eq, float?_signedText (numberText_bodyText hplus _), toFloat,
    toMagnitude_shortestMagnitude l.tie hk, Binary64.ofMagnitude_self hk]

theorem trim_render {x : Float} (hx : x.isFinite = true) : Text.trim (l.render x) = l.render x := by
  rw [render, if_pos hx, finiteText_eq, trim_signedText (numberText_bodyText hplus _)]

end Decimal.Layout

/-! ## Integers -/

theorem toString_eq_signedText (i : Int) :
    toString i = String.ofList (signedText (decide (i < 0)) (Nat.toDigits 10 i.natAbs)) := by
  rw [Int.toString_eq_repr, Int.repr_eq_if]
  by_cases h : 0 ≤ i
  · have habs : i.toNat = i.natAbs := by omega
    rw [if_pos h, habs, signedText, if_neg (by simpa using h), Nat.repr_eq_ofList_toDigits]
  · have habs : (-i).toNat = i.natAbs := by omega
    rw [if_neg h, habs, signedText, if_pos (by simpa using h), Nat.repr_eq_ofList_toDigits,
      String.ofList_cons]
    rfl

theorem numberText_toDigits (n : Nat) : NumberText (Nat.toDigits 10 n) (Decimal.toRat ⟨n, 0⟩) := by
  have h := NumberText.of_digits (.toDigits n) Nat.toDigits_ne_nil
  rw [Nat.ofDigitChars_ten_toDigits] at h
  simpa [Decimal.toRat] using h

theorem isNumberChar_toString (i : Int) : ∀ a ∈ (toString i).toList, IsNumberChar a := by
  rw [toString_eq_signedText, String.toList_ofList]
  exact isNumberChar_signedText (numberText_toDigits i.natAbs) _

theorem trim_toString (i : Int) : Text.trim (toString i) = toString i := by
  rw [toString_eq_signedText, trim_signedText (numberText_toDigits i.natAbs)]

theorem float?_toString_eq (i : Int) : float? (toString i) = some (Binary64.ofInt i) := by
  rw [toString_eq_signedText, float?_signedText (numberText_toDigits i.natAbs), Decimal.toFloat,
    Decimal.toMagnitude_eq]
  simp only [Int.toNat_zero, neg_zero, pow_zero, mul_one]
  rfl

/-- An integer that a double equals is read as that double, up to the sign of a zero. -/
theorem float?_toString {x : Float} {i : Int} (hx : x.isFinite = true) (hi : Binary64.toRat x = i) :
    ∃ y, float? (toString i) = some y ∧ y.isFinite = true ∧ Binary64.toRat y = i := by
  obtain ⟨hfinite, hvalue⟩ := Binary64.toRat_ofInt hx hi
  exact ⟨_, float?_toString_eq i, hfinite, hvalue⟩

end SkillBoard
