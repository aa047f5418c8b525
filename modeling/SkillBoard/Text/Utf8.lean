/-!
# UTF-8

Texts read from octets. `decode?` asks for a well-formed text; `decodeLossy` shows any octets, with
one replacement character for each longest piece that could have begun a character.
-/

namespace SkillBoard.Text.Utf8

/-- The text that the octets encode, if they are well formed. -/
def decode? (bytes : List UInt8) : Option String := String.fromUTF8? bytes.toByteArray

def encode (s : String) : List UInt8 := s.toByteArray.data.toList

/-- The least and the greatest octet that may stand at a place. -/
abbrev Span := UInt8 × UInt8

def tail : Span := (0x80, 0xBF)

/-- What a first octet asks for: the bits it gives, and the octets that complete the character. -/
def lead? (b : UInt8) : Option (Nat × List Span) :=
  let n := b.toNat
  if n < 0x80 then some (n, [])
  else if n < 0xC2 then none
  else if n < 0xE0 then some (n - 0xC0, [tail])
  else if n = 0xE0 then some (0, [(0xA0, 0xBF), tail])
  else if n = 0xED then some (0xD, [(0x80, 0x9F), tail])
  else if n < 0xF0 then some (n - 0xE0, [tail, tail])
  else if n = 0xF0 then some (0, [(0x90, 0xBF), tail, tail])
  else if n < 0xF4 then some (n - 0xF0, [tail, tail, tail])
  else if n = 0xF4 then some (4, [(0x80, 0x8F), tail, tail])
  else none

/-- A text part way through: the characters read (backwards), and the bits of an open character with
the octets it still asks for. -/
structure Scan where
  read : List Char
  bits : Nat
  owed : List Span

namespace Scan

def start : Scan := ⟨[], 0, []⟩

def enter (read : List Char) (b : UInt8) : Scan :=
  match lead? b with
  | some (bits, []) => ⟨Char.ofNat bits :: read, 0, []⟩
  | some (bits, owed) => ⟨read, bits, owed⟩
  | none => ⟨'\uFFFD' :: read, 0, []⟩

/-- The next octet. One that an open character does not ask for ends it unread. -/
def step (s : Scan) (b : UInt8) : Scan :=
  match s.owed with
  | [] => enter s.read b
  | (lo, hi) :: rest =>
    if lo ≤ b ∧ b ≤ hi then
      let bits := s.bits * 64 + b.toNat % 64
      if rest.isEmpty then ⟨Char.ofNat bits :: s.read, 0, []⟩ else ⟨s.read, bits, rest⟩
    else enter ('\uFFFD' :: s.read) b

def finish (s : Scan) : List Char :=
  (if s.owed.isEmpty then s.read else '\uFFFD' :: s.read).reverse

end Scan

/-- The text that the octets encode, each malformed piece replaced. -/
def decodeLossy (bytes : List UInt8) : String :=
  String.ofList (bytes.foldl Scan.step Scan.start).finish

end SkillBoard.Text.Utf8
