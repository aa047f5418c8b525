/-!
# Colours

Colours are four octets, the colour channels multiplied with the opacity already. All arithmetic is in
single precision.

* `Colour.withAlpha` blends a colour by an opacity, in linear light.
* `palette` spreads hues evenly; `PersonaColours` gives one to each persona, in ascending order.
-/

namespace SkillBoard

/-- A colour, its channels multiplied with `a`. -/
structure Colour where
  r : UInt8
  g : UInt8
  b : UInt8
  a : UInt8
  deriving DecidableEq, Repr

/-- The three channels of an opaque colour. -/
structure Rgb where
  r : UInt8
  g : UInt8
  b : UInt8
  deriving DecidableEq, Repr

namespace Rgb

def blue : Rgb := ⟨59, 130, 246⟩

def green : Rgb := ⟨16, 185, 129⟩

def yellow : Rgb := ⟨234, 179, 8⟩

def red : Rgb := ⟨239, 68, 68⟩

end Rgb

namespace Colour

def grey : Colour := ⟨160, 160, 160, 255⟩

/-- The linear light of a channel, from 0 to 1. -/
def linear (c : UInt8) : Float32 :=
  let x := c.toFloat32
  if c ≤ 10 then x / 3294.6 else ((x + 14.025) / 269.025).pow 2.4

/-- The nearest octet, a half going up; what is out of range goes to the nearer end. -/
def octet (x : Float32) : UInt8 := (x + 0.5).toUInt8

def gamma (l : Float32) : UInt8 :=
  if l ≤ 0 then 0
  else if l ≤ 0.0031308 then octet (3294.6 * l)
  else if l ≤ 1 then octet (269.025 * l.pow (1 / 2.4) - 14.025)
  else 255

/-- A colour at an opacity of `a / 255`. -/
def premultiplied (c : Rgb) (a : UInt8) : Colour :=
  if a = 0 then ⟨0, 0, 0, 0⟩
  else if a = 255 then ⟨c.r, c.g, c.b, 255⟩
  else
    let share := a.toFloat32 / 255
    ⟨gamma (linear c.r * share), gamma (linear c.g * share), gamma (linear c.b * share), a⟩

def unitClamp (x : Float32) : Float32 := if x < 0 then 0 else if 1 < x then 1 else x

def withAlpha (c : Rgb) (alpha : Float32) : Colour :=
  premultiplied c ((unitClamp alpha * 255).round).toUInt8

/-- The opaque colour of a hue in degrees, a saturation and a lightness. -/
def ofHsl (hue saturation lightness : Float32) : Colour :=
  let c := (1 - (lightness * 2 - 1).abs) * saturation
  let h := (hue - (hue / 360).floor * 360) / 60
  let x := c * (1 - (h - (h * 0.5).floor * 2 - 1).abs)
  let m := lightness - c * 0.5
  let (r, g, b) : Float32 × Float32 × Float32 :=
    if h < 1 then (c, x, 0)
    else if h < 2 then (x, c, 0)
    else if h < 3 then (0, c, x)
    else if h < 4 then (0, x, c)
    else if h < 5 then (x, 0, c)
    else (c, 0, x)
  let channel (base : Float32) : UInt8 := (unitClamp (base + m) * 255).toUInt8
  ⟨channel r, channel g, channel b, 255⟩

end Colour

/-- `n` colours with evenly spaced hues. -/
def palette (n : Nat) : List Colour :=
  (List.range n).map fun i =>
    Colour.ofHsl (Float32.ofNat i / Float32.ofNat n * 360) 0.75 0.55

/-- The colour of each persona, in ascending order of the personas. -/
structure PersonaColours where
  entries : List (Int × Colour)
  deriving DecidableEq

namespace PersonaColours

/-- One palette colour for each of a list of personas. -/
def of (personas : List Int) : PersonaColours := ⟨personas.zip (palette personas.length)⟩

/-- The colour of a persona, grey for an unknown one. -/
def colourOf (colours : PersonaColours) (persona : Int) : Colour :=
  (colours.entries.lookup persona).getD .grey

end PersonaColours

def personaLabel (persona : Int) : String := "Persona " ++ toString persona

end SkillBoard
