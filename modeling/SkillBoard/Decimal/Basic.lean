import SkillBoard.Binary

/-!
# Decimals

A `Decimal` is a natural number times a power of ten. Its two uses are reading (`toFloat`, the
nearest value) and writing (`shortest`, the fewest digits that read back).

* `shortestMagnitude` walks decimal grids from coarse to fine and stops at the first one where a
  neighbour of the value reads back, so no shorter decimal does; the last resort is the exact value,
  which always reads back.
-/

namespace SkillBoard

/-- The number `coefficient * 10 ^ exponent`. -/
structure Decimal where
  coefficient : Nat
  exponent : Int
  deriving DecidableEq, Repr

namespace Decimal

def tenPow (n : Nat) : Nat := Nat.pow 10 n

/-- The nearest magnitude of a format. Exponents that decide the answer alone are cut off first, so
that no power of ten is larger than the coefficient calls for. -/
def toMagnitude (f : BinaryFormat) (d : Decimal) : Nat :=
  if d.coefficient = 0 then 0
  else if 400 < d.exponent then f.infinity
  else if d.exponent < -(400 + d.coefficient.log2 : Int) then 0
  else if 0 ≤ d.exponent then f.nearest (d.coefficient * tenPow d.exponent.toNat) 1
  else f.nearest d.coefficient (tenPow (-d.exponent).toNat)

/-- The double nearest to the number, with a sign. -/
def toFloat (negative : Bool) (d : Decimal) : Float :=
  Binary64.ofMagnitude negative (d.toMagnitude binary64)

/-- The single nearest to the number, with a sign. -/
def toFloat32 (negative : Bool) (d : Decimal) : Float32 :=
  let k := d.toMagnitude binary32
  Float32.ofBits (UInt32.ofNat (if negative then 1 <<< 31 + k else k))

/-- Which of two equally near decimals is taken. -/
inductive Tie
  | up
  | even
  deriving DecidableEq, Repr

/-- A value on the grid of multiples of `10 ^ exponent`: the grid point at or below it as a
coefficient, and how the value compares with the middle between that point and the next. -/
def gridFloor (steps : Nat) (exponent : Int) : Nat × Ordering :=
  let (n, d) :=
    if 0 ≤ exponent then (steps, tenPow exponent.toNat * binary64.one)
    else (steps * tenPow (-exponent).toNat, binary64.one)
  (n / d, compare (2 * (n % d)) d)

/-- The grid's neighbour of the value that reads back as magnitude `k`; of two, the nearer. -/
def onGrid? (tie : Tie) (k : Nat) (exponent : Int) : Option Decimal :=
  let (c, half) := gridFloor (binary64.units k) exponent
  let below : Decimal := ⟨c, exponent⟩
  let above : Decimal := ⟨c + 1, exponent⟩
  let upFirst : Bool := match half with
    | .lt => false
    | .gt => true
    | .eq => tie == .up || c % 2 == 1
  let (first, second) := if upFirst then (above, below) else (below, above)
  if first.toMagnitude binary64 = k then some first
  else if second.toMagnitude binary64 = k then some second
  else none

/-- All digits of a magnitude's value. -/
def exact (k : Nat) : Decimal :=
  ⟨binary64.units k * Nat.pow 5 binary64.stepExponent, -(binary64.stepExponent : Int)⟩

/-- A power of ten above a positive finite magnitude's value, near it. -/
def gridStart (k : Nat) : Int :=
  (((binary64.units k).log2 : Int) - 1074) * 30103 / 100000 + 2

/-- The decimal with the fewest digits that reads back as the finite magnitude `k`, and of those the
nearest to its value. -/
def shortestMagnitude (tie : Tie) (k : Nat) : Decimal :=
  if k = 0 then ⟨0, 0⟩
  else ((List.range 20).findSome? fun (i : Nat) => onGrid? tie k (gridStart k - (i : Int))).getD (exact k)

def digits (d : Decimal) : List Char := Nat.toDigits 10 d.coefficient

/-- The exponent of the first digit: the value is `a.bc… * 10 ^ scale`. -/
def scale (d : Decimal) : Int := d.exponent + d.digits.length - 1

end Decimal

end SkillBoard
