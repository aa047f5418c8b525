import SkillBoard.Binary

/-!
# Random numbers

A reproducible generator with 256 bits of state.

* `Random.ofSeed` spreads a seed over the state, `Random.advance` moves the state on and
  `Random.output` is the word that a state gives.
* `fraction`, `gauss` and `below` draw from it. The two functions of analysis that a normal draw needs
  come as a parameter, `Analysis`.
-/

namespace SkillBoard

/-- The functions of analysis that normal draws need. -/
structure Analysis where
  ln : Float → Float
  cos : Float → Float

def Analysis.standard : Analysis := ⟨Float.log, Float.cos⟩

/-- The state of the generator. -/
structure Random where
  s0 : UInt64
  s1 : UInt64
  s2 : UInt64
  s3 : UInt64
  deriving DecidableEq, Repr

namespace Random

/-- The word rotated to the left, for an amount between 1 and 63. -/
def rotateLeft (x : UInt64) (amount : UInt64) : UInt64 :=
  x <<< amount ||| x >>> (64 - amount)

/-- One step of the sequence that seeds the state. -/
def spread (x : UInt64) : UInt64 := x * 6364136223846793005 + 1

def ofSeed (seed : UInt64) : Random :=
  let a := spread seed
  let b := spread a
  let c := spread b
  ⟨a, b, c, spread c⟩

def output (g : Random) : UInt64 := rotateLeft (g.s1 * 5) 7 * 9

def advance (g : Random) : Random :=
  let t := g.s1 <<< 17
  let c := g.s2 ^^^ g.s0
  let d := g.s3 ^^^ g.s1
  ⟨g.s0 ^^^ d, g.s1 ^^^ c, c ^^^ t, rotateLeft d 45⟩

def word : StateM Random UInt64 := modifyGet fun g => (g.output, g.advance)

/-- A random multiple of `2 ^ -53` from 0 up to 1, which is left out. -/
def fraction : StateM Random Float := do
  let x ← word
  return Binary64.ofNat (x >>> 11).toNat / Binary64.ofNat (1 <<< 53)

/-- A draw from the normal distribution of a mean and a deviation. -/
def gauss (f : Analysis) (mean deviation : Float) : StateM Random Float := do
  let u := Binary64.max (← fraction) 1e-15
  let v ← fraction
  let pi : Float := 3.141592653589793
  return mean + deviation * ((-2 * f.ln u).sqrt * f.cos (2 * pi * v))

/-- A random number below `n`, for `0 < n`. -/
def below (n : Nat) : StateM Random Nat := do
  let u ← fraction
  return (Binary64.truncate (u * Binary64.ofNat n)).toNat % n

/-- A request to the generator. -/
inductive Request
  | word
  | fraction
  | gauss (mean deviation : Float)
  | below (n : Nat)

/-- What a request gives. -/
inductive Reply
  | word (value : UInt64)
  | fraction (value : Float)
  | gauss (value : Float)
  | below (value : Nat)

/-- Answers a request; there is no number below zero. -/
def answer (f : Analysis) : Request → OptionT (StateM Random) Reply
  | .word => .word <$> OptionT.lift word
  | .fraction => .fraction <$> OptionT.lift fraction
  | .gauss mean deviation => .gauss <$> OptionT.lift (gauss f mean deviation)
  | .below n => if n = 0 then failure else .below <$> OptionT.lift (below n)

/-- Answers a list of requests, up to the first that has no answer: then there are no replies. -/
def serve (f : Analysis) (requests : List Request) : StateM Random (Option (List Reply)) :=
  (requests.mapM (answer f)).run

/-- The replies to requests from a seed on. -/
def answers (f : Analysis) (seed : UInt64) (requests : List Request) : Option (List Reply) :=
  ((serve f requests).run (ofSeed seed)).1

end Random

end SkillBoard
