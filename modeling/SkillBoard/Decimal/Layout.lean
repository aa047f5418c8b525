import SkillBoard.Decimal.Basic

/-!
# Number texts

How a value is written out. A `Layout` collects the decisions of one written form; `Layout.render`
follows it with the fewest digits that read back. `fixed` writes a given number of decimal places.

* `Layout.plain` has no exponent at all; it is how the board shows a value.
* `Layout.json` and `Layout.csv` are the written forms of the two text formats.
-/

namespace SkillBoard.Decimal

/-- The decisions of a written form. -/
structure Layout where
  /-- The first digit's exponents that are written without an exponent; `none` stands for all. -/
  positional : Option (Int × Int)
  /-- Whether a whole number keeps a point and a zero. -/
  wholePoint : Bool
  /-- The sign written before a positive exponent. -/
  exponentPlus : String
  /-- Which of two equally near shortest decimals is written. -/
  tie : Tie

def nonFinite (x : Float) : String :=
  if x.isNaN then "NaN" else if Binary64.isNegative x then "-inf" else "inf"

/-- Digits with a decimal point, all places written out: `c * 10 ^ e`. -/
def positionalText (c : List Char) (e : Int) (wholePoint : Bool) : List Char :=
  if 0 ≤ e then
    c ++ List.replicate e.toNat '0' ++ (if wholePoint then ['.', '0'] else [])
  else
    let places := (-e).toNat
    let padded := List.replicate (places + 1 - c.length) '0' ++ c
    padded.take (padded.length - places) ++ '.' :: padded.drop (padded.length - places)

/-- Digits with the point behind the first one, and the exponent. -/
def exponentText (c : List Char) (scale : Int) (plus : String) : List Char :=
  c.take 1 ++ (if c.length ≤ 1 then [] else '.' :: c.drop 1) ++
    'e' :: (if 0 ≤ scale then plus.toList else ['-']) ++ Nat.toDigits 10 scale.natAbs

namespace Layout

/-- The digits of a finite value, sign included. -/
def finiteText (l : Layout) (x : Float) : List Char :=
  let d := shortestMagnitude l.tie (Binary64.magnitude x)
  let body :=
    match l.positional with
    | none => positionalText d.digits d.exponent l.wholePoint
    | some (lo, hi) =>
      if lo ≤ d.scale ∧ d.scale ≤ hi then positionalText d.digits d.exponent l.wholePoint
      else exponentText d.digits d.scale l.exponentPlus
  if Binary64.isNegative x then '-' :: body else body

def render (l : Layout) (x : Float) : String :=
  if x.isFinite then String.ofList (l.finiteText x) else nonFinite x

/-- The plain form: every place is written, a whole number has no point. -/
def plain : Layout := ⟨none, false, "", .up⟩

def json : Layout := ⟨some (-5, 15), true, "+", .even⟩

def csv : Layout := ⟨some (-5, 15), true, "", .even⟩

end Layout

/-- A value with the given number of decimal places, rounded exactly with a half going to the even
digit; a negative value keeps its sign even where only zeros are left. -/
def fixed (places : Nat) (x : Float) : String :=
  if x.isFinite then
    let c := roundHalfEven (Binary64.units x * tenPow places) binary64.one
    let body := positionalText (Nat.toDigits 10 c) (-(places : Int)) false
    String.ofList (if Binary64.isNegative x then '-' :: body else body)
  else nonFinite x

/-- As `fixed`, with a plus sign before a value that is not negative. -/
def fixedSigned (places : Nat) (x : Float) : String :=
  if x.isNaN || Binary64.isNegative x then fixed places x else "+" ++ fixed places x

end SkillBoard.Decimal
