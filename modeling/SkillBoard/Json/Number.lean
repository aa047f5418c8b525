import SkillBoard.Decimal.Reader
import SkillBoard.Json.Basic

/-!
# Numbers in JSON

A number is read with one word of precision. Its digits are gathered while they fit 64 bits, the rest
only moves the point; then the gathered number is rounded to a double, and that is multiplied or
divided by a power of ten. So a number is not the nearest double in general.

* `Significand` gathers digits, `scaled?` applies the exponent, `number?` reads a whole number text.
-/

namespace SkillBoard.Json

/-- The digits of a number that fit 64 bits, with the exponent of the last one kept. -/
structure Significand where
  value : Nat
  exponent : Int
  deriving DecidableEq, Repr

namespace Significand

/-- Whether the value still fits 64 bits with one more digit. -/
def takes (s : Significand) (digit : Nat) : Bool := s.value * 10 + digit < UInt64.size

/-- Integer digits. From the first that does not fit on, each counts as a place only. -/
def whole : Significand → List Char → Significand
  | s, [] => s
  | s, c :: rest =>
    let digit := c.toNat - '0'.toNat
    if s.takes digit then whole ⟨s.value * 10 + digit, s.exponent⟩ rest
    else ⟨s.value, s.exponent + (rest.length + 1 : Nat)⟩

/-- Fraction digits. From the first that does not fit on, all are dropped. -/
def fraction : Significand → List Char → Significand
  | s, [] => s
  | s, c :: rest =>
    let digit := c.toNat - '0'.toNat
    if s.takes digit then fraction ⟨s.value * 10 + digit, s.exponent - 1⟩ rest else s

end Significand

def powerOfTen (n : Nat) : Float := Decimal.toFloat false ⟨1, n⟩

/-- A double times a power of ten, by steps of at most `10 ^ 308`; nothing if the result is too
large. -/
def scaled? (x : Float) (exponent : Int) : Option Float :=
  if exponent.natAbs ≤ 308 then
    if 0 ≤ exponent then
      let y := x * powerOfTen exponent.natAbs
      if y.isInf then none else some y
    else some (x / powerOfTen exponent.natAbs)
  else if x == 0 then some x
  else if 0 < exponent then none
  else scaled? (x / powerOfTen 308) (exponent + 308)
termination_by exponent.natAbs
decreasing_by omega

def signed (negative : Bool) (x : Float) : Float := if negative then -x else x

/-- A number with fraction or exponent: the gathered digits and the explicit exponent. An exponent
beyond 32 bits is too large, or leaves zero. -/
def real? (negative : Bool) (s : Significand) (exponent : Int) : Option Json :=
  if 1 <<< 31 ≤ exponent.natAbs then
    if s.value ≠ 0 ∧ 0 < exponent then none else some (.real (signed negative 0))
  else
    (scaled? (Binary64.ofNat s.value) (s.exponent + exponent)).map fun x => .real (signed negative x)

/-- A number of integer digits alone: an integer if it fits 64 bits (with a sign, 63 bits). -/
def ofWhole? (negative : Bool) (s : Significand) : Option Json :=
  if s.exponent ≠ 0 then real? negative s 0
  else if !negative then some (.int s.value)
  else if s.value = 0 ∨ 1 <<< 63 < s.value then some (.real (-Binary64.ofNat s.value))
  else some (.int (-s.value))

/-- The exponent of a number, `none` inside if there is none at all. -/
def exponent? : List Char → Option (Option Int)
  | [] => some none
  | r => (Numeral.exponent? r).map some

def unsigned? (negative : Bool) (s : List Char) : Option Json := do
  let (whole, r) := Numeral.spanDigits s
  let leadingZero := 1 < whole.length && whole.head? == some '0'
  if whole.isEmpty || leadingZero then none
  else
    let gathered := Significand.whole ⟨0, 0⟩ whole
    match r with
    | '.' :: r =>
      let (places, r) := Numeral.spanDigits r
      if places.isEmpty then none
      else
        let e ← exponent? r
        real? negative (gathered.fraction places) (e.getD 0)
    | r =>
      match ← exponent? r with
      | none => ofWhole? negative gathered
      | some e => real? negative gathered e

def number? : List Char → Option Json
  | '-' :: r => unsigned? true r
  | r => unsigned? false r

end SkillBoard.Json
