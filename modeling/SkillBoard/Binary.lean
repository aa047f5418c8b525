/-!
# Binary floating point by magnitude

A value of a binary format is a sign and a *magnitude*: the bits without the sign, read as a number.
Magnitudes count the values upwards from zero, so they compare as the values do, and every exact
question about a value (is it whole, what is its integer part, which value is nearest to a
quotient) is arithmetic on natural numbers.

* `BinaryFormat.units` is the value of a magnitude, counted in the format's smallest step.
* `BinaryFormat.nearest` is the magnitude nearest to a quotient; a tie goes to the even magnitude.
* `Binary64` reads and builds `Float`s this way.
-/

namespace SkillBoard

/-- A binary format: the width of its fraction, the (negated) exponent of its smallest step, and the
magnitude of its infinity. -/
structure BinaryFormat where
  fractionBits : Nat
  stepExponent : Nat
  infinity : Nat

def binary64 : BinaryFormat := ⟨52, 1074, 0x7FF0000000000000⟩

def binary32 : BinaryFormat := ⟨23, 149, 0x7F800000⟩

/-- The whole number nearest to `n / d`; a half goes to the even neighbour. -/
def roundHalfEven (n d : Nat) : Nat :=
  match compare (2 * (n % d)) d with
  | .lt => n / d
  | .eq => n / d + n / d % 2
  | .gt => n / d + 1

/-- The whole number nearest to `n / d`; a half goes up. -/
def roundHalfUp (n d : Nat) : Nat :=
  (2 * n + d) / (2 * d)

namespace BinaryFormat

/-- How many magnitudes lie between two powers of two. -/
def binade (f : BinaryFormat) : Nat := 1 <<< f.fractionBits

/-- The number one as a multiple of the smallest step `2 ^ -stepExponent`. -/
def one (f : BinaryFormat) : Nat := 1 <<< f.stepExponent

/-- The value of magnitude `k` as a multiple of the smallest step. In the first binade neighbours are
one step apart, and so they are in the second; from there on each binade doubles the distance. -/
def units (f : BinaryFormat) (k : Nat) : Nat :=
  if k < f.binade then k else (f.binade + k % f.binade) <<< (k / f.binade - 1)

/-- The magnitude nearest to `n / d`, for `0 < d`; a tie goes to the even magnitude, and what rounds
past the last finite value is infinite. -/
def nearest (f : BinaryFormat) (n d : Nat) : Nat :=
  let steps := n * f.one
  let shift := (steps / d).log2 - f.fractionBits
  min (shift * f.binade + roundHalfEven steps (d <<< shift)) f.infinity

end BinaryFormat

namespace Binary64

def signBit : Nat := 1 <<< 63

/-- The bits of a value without its sign. -/
def magnitude (x : Float) : Nat := x.toBits.toNat % signBit

/-- The sign bit, which a negative zero has too. -/
def isNegative (x : Float) : Bool := signBit ≤ x.toBits.toNat

/-- The size of a finite value, counted in smallest steps. -/
def units (x : Float) : Nat := binary64.units (magnitude x)

def ofMagnitude (negative : Bool) (k : Nat) : Float :=
  Float.ofBits (UInt64.ofNat (if negative then signBit + k else k))

/-- The value nearest to `± n / d`, for `0 < d`. -/
def ofRatio (negative : Bool) (n d : Nat) : Float :=
  ofMagnitude negative (binary64.nearest n d)

def ofNat (n : Nat) : Float := ofRatio false n 1

def ofInt (i : Int) : Float := ofRatio (i < 0) i.natAbs 1

def isWhole (x : Float) : Bool := units x % binary64.one == 0

/-- The integer part of a finite value: the fraction is dropped. -/
def truncate (x : Float) : Int :=
  if isNegative x then -(units x / binary64.one : Nat) else (units x / binary64.one : Nat)

/-- The nearest integer, a half going away from zero; the sign of the value is kept. -/
def round (x : Float) : Float :=
  if x.isFinite then ofRatio (isNegative x) (roundHalfUp (units x) binary64.one) 1 else x

/-- The least integer that is not below the value; the sign of the value is kept. -/
def ceil (x : Float) : Float :=
  if x.isFinite then
    if isNegative x then ofRatio true (units x / binary64.one) 1
    else ofRatio false ((units x + (binary64.one - 1)) / binary64.one) 1
  else x

/-- The larger of two values; one that is not a number gives way to the other. -/
def max (a b : Float) : Float := if a < b || a.isNaN then b else a

/-- The value moved into `[lo, hi]`; what is not a number stays. -/
def clamp (lo hi x : Float) : Float := if x < lo then lo else if hi < x then hi else x

/-- The order of two values, equal where they do not compare. -/
def compare (a b : Float) : Ordering := if a < b then .lt else if b < a then .gt else .eq

/-- A key that puts all values in one line: what is not a number first, then by size, with `-0`
before `0`. -/
def lineKey (x : Float) : Int :=
  if x.isNaN then -(signBit : Int) - 1
  else if isNegative x then -(magnitude x : Int) - 1
  else magnitude x

/-- The order along `lineKey`. -/
def lineCompare (a b : Float) : Ordering := Ord.compare (lineKey a) (lineKey b)

def toSingle (x : Float) : Float :=
  if x.isFinite then
    let k := binary32.nearest (units x) binary64.one
    if k = binary32.infinity then ofMagnitude (isNegative x) binary64.infinity
    else ofRatio (isNegative x) (binary32.units k) binary32.one
  else x

end Binary64

end SkillBoard
