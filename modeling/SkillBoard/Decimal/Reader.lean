import SkillBoard.Decimal.Basic

/-!
# Reading a number text

The number text of a cell: one optional sign, then `inf`, `infinity` or `nan` in any case, or digits
with an optional point and an optional exponent. Digits are asked for on one side of the point only.

* `Numeral.parse?` reads the text, `Numeral.toFloat` is the nearest value.
-/

namespace SkillBoard

/-- What a number text says, before it is rounded to a value. -/
inductive Numeral
  | nan
  | infinite (negative : Bool)
  | finite (negative : Bool) (value : Decimal)
  deriving DecidableEq, Repr

namespace Numeral

/-- The digits at the front of a text, and the rest. -/
def spanDigits (s : List Char) : List Char × List Char := s.span Char.isDigit

/-- The exponent that ends a number text: nothing at all, or `e`, a sign and digits. -/
def exponent? : List Char → Option Int
  | [] => some 0
  | c :: r =>
    if c = 'e' ∨ c = 'E' then
      let (negative, ds) := match r with
        | '-' :: ds => (true, ds)
        | '+' :: ds => (false, ds)
        | ds => (false, ds)
      if ds ≠ [] ∧ ds.all Char.isDigit then
        let n := Nat.ofDigitChars 10 ds 0
        some (if negative then -(n : Int) else n)
      else none
    else none

def decimal? (s : List Char) : Option Decimal := do
  let (whole, r) := spanDigits s
  let (fraction, r) := match r with
    | '.' :: r => spanDigits r
    | r => ([], r)
  if whole.isEmpty && fraction.isEmpty then none
  else
    let e ← exponent? r
    some ⟨Nat.ofDigitChars 10 (whole ++ fraction) 0, e - fraction.length⟩

def unsigned? (negative : Bool) (s : List Char) : Option Numeral :=
  let word := s.map Char.toLower
  if word = "nan".toList then some .nan
  else if word = "inf".toList ∨ word = "infinity".toList then some (.infinite negative)
  else (decimal? s).map (.finite negative)

def parse? : List Char → Option Numeral
  | '-' :: r => unsigned? true r
  | '+' :: r => unsigned? false r
  | r => unsigned? false r

def toFloat : Numeral → Float
  | nan => 0.0 / 0.0
  | infinite negative => Binary64.ofMagnitude negative binary64.infinity
  | finite negative d => d.toFloat negative

def toFloat32 : Numeral → Float32
  | nan => 0.0 / 0.0
  | infinite negative => if negative then -1.0 / 0.0 else 1.0 / 0.0
  | finite negative d => d.toFloat32 negative

end Numeral

def float? (s : String) : Option Float := (Numeral.parse? s.toList).map Numeral.toFloat

end SkillBoard
