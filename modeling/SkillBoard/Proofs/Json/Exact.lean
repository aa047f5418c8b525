import SkillBoard.Proofs.Binary.Rounding
import SkillBoard.Proofs.Json.Number

/-!
# Decimals that JSON reads exactly

A number is rounded twice as it is read, its digits first and then their product or quotient with a power of
ten. Where the digits and the power are doubles, only the second rounds.

* `scaled?_eq`: then the result is the nearest double.
* `Short`: the decimals of so few digits that this is so, in whatever form they are written
  (`Short.bodyText`).
* `number?_render`: a double whose shortest decimal is short is read back from its text.
-/

namespace SkillBoard.Json

open Binary64 (ofMagnitude ofRatio one_pos)

/-! ## One rounding -/

/-- The powers of ten that are doubles. -/
theorem powerOfTen_eq {n : Nat} (hn : n ≤ 22) : ∃ k < binary64.infinity,
    powerOfTen n = ofMagnitude false k ∧ binary64.units k = 10 ^ n * binary64.one := by
  have hfive : 5 ^ n < 2 ^ 53 :=
    (Nat.pow_le_pow_right (by norm_num) hn).trans_lt (by norm_num : 5 ^ 22 < 2 ^ 53)
  obtain ⟨k, hk, heq, hunits⟩ := Binary64.ofNat_eq hfive (by omega : n ≤ 971)
  rw [← mul_pow, (by norm_num : 5 * 2 = 10)] at heq hunits
  refine ⟨k, hk, ?_, hunits⟩
  rw [← heq, powerOfTen, Decimal.toFloat, Decimal.toMagnitude_eq, one_mul, Int.toNat_natCast,
    Int.toNat_neg_natCast, pow_zero]
  rfl

/-- The double nearest to a decimal, as a rounded quotient. -/
theorem toFloat_eq (negative : Bool) (c : Nat) (e : Int) : Decimal.toFloat negative ⟨c, e⟩ =
    ofRatio negative (c * 10 ^ e.toNat) (10 ^ (-e).toNat) := by
  rw [Decimal.toFloat, Decimal.toMagnitude_eq, ofRatio]

/-- Digits and a power that are doubles make the nearest double. -/
theorem scaled?_eq {c : Nat} {e : Int} (hc : c < 2 ^ 53) (he : e.natAbs ≤ 22)
    (hfinite : (Decimal.toFloat false ⟨c, e⟩).isFinite = true) :
    scaled? (Binary64.ofNat c) e = some (Decimal.toFloat false ⟨c, e⟩) := by
  obtain ⟨j, hj, hdigits, hunits⟩ := Binary64.ofNat_eq (s := 0) hc (by omega)
  obtain ⟨k, hk, hpower, hunits'⟩ := powerOfTen_eq he
  have hone := one_pos binary64
  rw [pow_zero, mul_one] at hdigits hunits
  rw [toFloat_eq] at hfinite ⊢
  rw [scaled?, if_pos (he.trans (by norm_num)), hdigits, hpower]
  by_cases hnonneg : 0 ≤ e
  · have hexp : e.natAbs = e.toNat ∧ (-e).toNat = 0 := by omega
    have hproduct : ofMagnitude false j * ofMagnitude false k =
        ofRatio false (c * 10 ^ e.toNat) (10 ^ (-e).toNat) := by
      rw [Binary64.ofMagnitude_mul _ _ hj hk, hunits, hunits', hexp.1, hexp.2, mul_mul_mul_comm]
      exact Binary64.ofRatio_congr (Nat.mul_pos hone hone) Nat.one_pos (by rw [pow_zero, mul_one])
    simp only [if_pos hnonneg, hproduct, Binary64.isInf_of_isFinite hfinite, Bool.false_eq_true, if_false]
  · have hexp : e.natAbs = (-e).toNat ∧ e.toNat = 0 := by omega
    have hten : 0 < 10 ^ (-e).toNat := by positivity
    have hpos : 0 < k := by
      have hzero : binary64.units 0 = 0 := rfl
      have hpositive := Nat.mul_pos hten hone
      refine Nat.pos_of_ne_zero fun hk0 => ?_
      rw [hk0, hzero, hexp.1] at hunits'
      omega
    have hquotient : ofMagnitude false j / ofMagnitude false k =
        ofRatio false (c * 10 ^ e.toNat) (10 ^ (-e).toNat) := by
      rw [Binary64.ofMagnitude_div _ _ hj hk hpos, hunits, hunits', hexp.1, hexp.2, pow_zero, mul_one]
      exact Binary64.ofRatio_congr (Nat.mul_pos hten hone) hten (by rw [mul_right_comm, mul_assoc])
    rw [if_neg hnonneg, hquotient]

/-! ## Gathered digits -/

/-- A text without sign, of which all digits are gathered to a decimal. -/
def Gathers (s : List Char) (d : Decimal) : Prop :=
  ∀ negative, unsigned? negative s =
    (scaled? (Binary64.ofNat d.coefficient) d.exponent).map fun x => .real (signed negative x)

theorem real?_eq (negative : Bool) (s : Significand) {e : Int} (he : e.natAbs < 1 <<< 31) :
    real? negative s e = (scaled? (Binary64.ofNat s.value) (s.exponent + e)).map fun x =>
      .real (signed negative x) :=
  if_neg (Nat.not_le.2 he)

theorem gathers_places {w f : List Char} (hw : IsWhole w) (hf : IsDigits f) (hne : f ≠ [])
    (hfits : Nat.ofDigitChars 10 (w ++ f) 0 < UInt64.size) :
    Gathers (w ++ '.' :: f) ⟨Nat.ofDigitChars 10 (w ++ f) 0, -(f.length : Int)⟩ := by
  intro negative
  have hread := unsigned?_places hw .nil negative hf hne hfits
  rw [List.append_nil] at hread
  rw [hread]
  show real? negative _ 0 = _
  rw [real?_eq _ _ (by decide), add_zero]

section

variable (c : Nat) {n : Nat}

/-- A whole number is written with a zero behind the point, which is gathered too. -/
theorem gathers_positional_whole (hzero : c = 0 → n = 0) (hfits : c * 10 ^ (n + 1) < UInt64.size) :
    Gathers (Decimal.positionalText (Nat.toDigits 10 c) n true) ⟨c * 10 ^ (n + 1), -1⟩ := by
  have hdigits : IsDigits (Nat.toDigits 10 c ++ List.replicate n '0') :=
    (IsDigits.toDigits c).append (.zeros n)
  have hwhole : IsWhole (Nat.toDigits 10 c ++ List.replicate n '0') := by
    rcases Nat.eq_zero_or_pos c with h0 | hpos
    · rw [hzero h0, List.replicate_zero, List.append_nil]
      exact isWhole_toDigits c
    · refine .of_head? hdigits (by simp [Nat.toDigits_ne_nil]) ?_
      rw [List.head?_append_of_ne_nil _ Nat.toDigits_ne_nil]
      exact head?_toDigits hpos
  have hvalue : Nat.ofDigitChars 10 (Nat.toDigits 10 c ++ List.replicate n '0' ++ ['0']) 0 =
      c * 10 ^ (n + 1) := by
    rw [Nat.ofDigitChars_append, Nat.ofDigitChars_append, Nat.ofDigitChars_replicate_zero,
      Nat.ofDigitChars_ten_toDigits, Nat.ofDigitChars_cons, Nat.ofDigitChars_nil, Nat.sub_self]
    ring
  have hgathers := gathers_places hwhole (.zeros 1) (List.cons_ne_nil _ _) (by rwa [List.replicate_one, hvalue])
  rw [List.replicate_one, hvalue] at hgathers
  unfold Decimal.positionalText
  rw [if_pos (Int.natCast_nonneg n), Int.toNat_natCast]
  exact hgathers

theorem gathers_positional_places (hpos : 0 < c) (hn : 0 < n) (hfits : c < UInt64.size) (point : Bool) :
    Gathers (Decimal.positionalText (Nat.toDigits 10 c) (-(n : Int)) point) ⟨c, -(n : Int)⟩ := by
  obtain ⟨w, f, htext, hw, hne, hf, hlength, hvalue, hhead⟩ :=
    NumberText.exists_places (IsDigits.toDigits c) hn point
  rw [Nat.ofDigitChars_ten_toDigits] at hvalue
  have hwhole : IsWhole w := by
    rcases hhead with h | h
    · exact .of_length hw h
    · exact .of_head? hw hne (h ▸ head?_toDigits hpos)
  have hgathers := gathers_places hwhole hf (List.length_pos_iff.1 (by omega)) (by rwa [hvalue])
  rw [htext]
  rwa [hvalue, hlength] at hgathers

theorem gathers_exponent (hfits : c < UInt64.size) {scale : Int} (hscale : scale.natAbs < 1 <<< 31) :
    Gathers (Decimal.exponentText (Nat.toDigits 10 c) scale "+")
      ⟨c, scale - ((Nat.toDigits 10 c).length - 1 : Nat)⟩ := by
  intro negative
  have hdigits := IsDigits.toDigits c
  have hne : Nat.toDigits 10 c ≠ [] := Nat.toDigits_ne_nil
  have hfirst : IsWhole ((Nat.toDigits 10 c).take 1) := .first hdigits hne
  have hexp := Numeral.exponent?_scale (.inr rfl : "+" = "" ∨ "+" = "+") scale
  unfold Decimal.exponentText
  rw [List.append_assoc, List.append_assoc]
  rw [List.cons_append] at hexp ⊢
  generalize (if 0 ≤ scale then "+".toList else ['-']) ++ Nat.toDigits 10 scale.natAbs = r at hexp ⊢
  have hread : exponent? ('e' :: r) = some (some scale) := by
    rw [exponent?, hexp, Option.map_some]
    simp
  have hends : EndsDigits ('e' :: r) := .cons rfl r
  by_cases hlength : (Nat.toDigits 10 c).length ≤ 1
  · have hsingle : (Nat.toDigits 10 c).take 1 = Nat.toDigits 10 c := List.take_of_length_le hlength
    rw [hsingle] at hfirst ⊢
    rw [if_pos hlength, List.nil_append, unsigned?_whole hfirst hends negative
      (by rwa [Nat.ofDigitChars_ten_toDigits]) (by simp), hread, Nat.ofDigitChars_ten_toDigits]
    show real? negative _ scale = _
    rw [real?_eq _ _ hscale, Nat.sub_eq_zero_of_le hlength, Nat.cast_zero, zero_add, sub_zero]
  · have hrest : (Nat.toDigits 10 c).drop 1 ≠ [] := by
      rw [Ne, List.drop_eq_nil_iff]
      exact hlength
    have hvalue : Nat.ofDigitChars 10 ((Nat.toDigits 10 c).take 1 ++ (Nat.toDigits 10 c).drop 1) 0 = c := by
      rw [List.take_append_drop, Nat.ofDigitChars_ten_toDigits]
    rw [if_neg hlength, List.cons_append,
      unsigned?_places hfirst hends negative (hdigits.drop 1) hrest (by rwa [hvalue]), hread, hvalue]
    show real? negative _ scale = _
    rw [real?_eq _ _ hscale, List.length_drop, neg_add_eq_sub]

end

/-! ## Short decimals -/

/-- A text without sign that is read with one rounding, as the double nearest to a decimal. -/
def ReadsExactly (s : List Char) (d : Decimal) : Prop :=
  ∃ d' : Decimal, Gathers s d' ∧ d'.toRat = d.toRat ∧ d'.coefficient < 2 ^ 53 ∧ d'.exponent.natAbs ≤ 22

theorem ReadsExactly.unsigned?_eq {s : List Char} {d : Decimal} (h : ReadsExactly s d)
    (hfinite : (d.toFloat false).isFinite = true) (negative : Bool) :
    unsigned? negative s = some (.real (signed negative (d.toFloat false))) := by
  obtain ⟨d', hgathers, hvalue, hlt, hexponent⟩ := h
  have hfloat : d'.toFloat false = d.toFloat false := by
    rw [Decimal.toFloat, Decimal.toMagnitude_congr hvalue, Decimal.toFloat]
  rw [← hfloat] at hfinite ⊢
  rw [hgathers, scaled?_eq hlt hexponent hfinite, Option.map_some]

/-- A decimal of few digits, also where it is written with a zero behind the point. -/
structure Short (d : Decimal) : Prop where
  coefficient_lt : d.coefficient * 10 ^ (d.exponent + 1).toNat < 2 ^ 53
  le_exponent : -22 ≤ d.exponent

namespace Short

section

variable {c : Nat} {e : Int} (h : Short ⟨c, e⟩) (hzero : c = 0 → e = 0)

include h

theorem lt : c < 2 ^ 53 := (Nat.le_mul_of_pos_right c (by positivity)).trans_lt h.coefficient_lt

include hzero

theorem exponent_le : e ≤ 15 := by
  rcases Nat.eq_zero_or_pos c with h0 | hpos
  · exact (hzero h0).trans_le (by norm_num)
  · have hpow : 10 ^ (e + 1).toNat < 10 ^ 16 :=
      (Nat.le_mul_of_pos_left _ hpos).trans_lt (h.coefficient_lt.trans (by norm_num))
    have hlt := (Nat.pow_lt_pow_iff_right (by norm_num)).1 hpow
    omega

theorem positionalText : ReadsExactly (Decimal.positionalText (Nat.toDigits 10 c) e true) ⟨c, e⟩ := by
  have hle : -22 ≤ e := h.le_exponent
  by_cases hnonneg : 0 ≤ e
  · obtain ⟨n, rfl⟩ := Int.eq_ofNat_of_zero_le hnonneg
    have hproduct : c * 10 ^ (n + 1) < 2 ^ 53 := h.coefficient_lt
    refine ⟨_, gathers_positional_whole c (fun h0 => ?_) (hproduct.trans (by decide)), ?_, hproduct, ?_⟩
    · exact_mod_cast hzero h0
    · simp only [Decimal.toRat]
      push_cast
      rw [zpow_neg_one, zpow_natCast]
      field_simp
      ring
    · simp
  · obtain ⟨n, rfl⟩ : ∃ n : Nat, e = -(n : Int) := ⟨(-e).toNat, by omega⟩
    have hpos : 0 < c := by
      refine Nat.pos_of_ne_zero fun h0 => ?_
      have he := hzero h0
      omega
    exact ⟨_, gathers_positional_places c hpos (by omega) (h.lt.trans (by decide)) true, rfl, h.lt,
      show (-(n : Int)).natAbs ≤ 22 by omega⟩

theorem exponentText :
    ReadsExactly (Decimal.exponentText (Nat.toDigits 10 c) (Decimal.scale ⟨c, e⟩) "+") ⟨c, e⟩ := by
  have hle : -22 ≤ e := h.le_exponent
  have hexponent := h.exponent_le hzero
  have hlength : (Nat.toDigits 10 c).length ≤ 16 :=
    (Nat.length_toDigits_le_iff (by norm_num) (by norm_num)).2 (h.lt.trans (by norm_num))
  have hpos := List.length_pos_iff.2 (Nat.toDigits_ne_nil (n := c) (b := 10))
  have hdigits : Decimal.scale ⟨c, e⟩ = e + (Nat.toDigits 10 c).length - 1 := rfl
  have hscale : (Decimal.scale ⟨c, e⟩).natAbs < 1 <<< 31 := by
    rw [hdigits, Nat.one_shiftLeft]
    omega
  have hread := gathers_exponent c (h.lt.trans (by decide)) hscale
  have he : Decimal.scale ⟨c, e⟩ - ((Nat.toDigits 10 c).length - 1 : Nat) = e := by
    rw [hdigits]
    omega
  rw [he] at hread
  exact ⟨_, hread, rfl, h.lt, show e.natAbs ≤ 22 by omega⟩

end

theorem bodyText {d : Decimal} (h : Short d) (hzero : d.coefficient = 0 → d.exponent = 0) :
    ReadsExactly (Decimal.Layout.json.bodyText d) d := by
  unfold Decimal.Layout.bodyText
  simp only [Decimal.Layout.json]
  split_ifs
  · exact positionalText h hzero
  · exact exponentText h hzero

end Short

instance (d : Decimal) : Decidable (Short d) :=
  decidable_of_iff (d.coefficient * 10 ^ (d.exponent + 1).toNat < 2 ^ 53 ∧ -22 ≤ d.exponent)
    ⟨fun h => ⟨h.1, h.2⟩, fun h => ⟨h.1, h.2⟩⟩

open Decimal (shortestMagnitude)

/-- **A double whose shortest decimal is short is read back from its text.** -/
theorem number?_render {x : Float} (hx : x.isFinite = true)
    (h : Short (shortestMagnitude .even (Binary64.magnitude x))) :
    number? (Decimal.Layout.json.render x).toList = some (.real x) := by
  have hk : Binary64.magnitude x ≤ binary64.infinity := ((Binary64.isFinite_iff x).1 hx).le
  have hread := Decimal.toMagnitude_shortestMagnitude .even hk
  have hzero : (shortestMagnitude .even (Binary64.magnitude x)).coefficient = 0 →
      (shortestMagnitude .even (Binary64.magnitude x)).exponent = 0 := by
    intro h0
    rw [Decimal.toMagnitude, if_pos h0] at hread
    rw [← hread]
    rfl
  have hstarts := (Decimal.Layout.numberText_bodyText (l := .json) (.inr rfl)
    (shortestMagnitude .even (Binary64.magnitude x))).starts
  have hfloat : (shortestMagnitude .even (Binary64.magnitude x)).toFloat false =
      ofMagnitude false (Binary64.magnitude x) := by
    rw [Decimal.toFloat, hread]
  have hunsigned := (h.bodyText hzero).unsigned?_eq
    (hfloat ▸ Binary64.isFinite_ofMagnitude false ((Binary64.isFinite_iff x).1 hx))
    (Binary64.isNegative x)
  have hsigned : signed (Binary64.isNegative x) (ofMagnitude false (Binary64.magnitude x)) = x := by
    nth_rewrite 3 [← Binary64.ofMagnitude_self hk]
    cases Binary64.isNegative x with
    | false => rfl
    | true => exact Binary64.neg_ofMagnitude false hk
  obtain ⟨a, r, htext, ha⟩ := hstarts
  rw [Decimal.Layout.render, if_pos hx, String.toList_ofList, Decimal.Layout.finiteText_eq]
  show number? (signedText _ (Decimal.Layout.json.bodyText (shortestMagnitude .even _))) = _
  rw [number?_signedText htext ha, hunsigned, hfloat, hsigned]

end SkillBoard.Json
