import SkillBoard.Text.Utf8

/-!
# File names

A path is a list of octets. Its extension decides the format of a file.
-/

namespace SkillBoard

/-- A path, which need not be a text. -/
structure Path where
  octets : List UInt8
  deriving DecidableEq, Repr

namespace Path

def ofString (s : String) : Path := ⟨Text.Utf8.encode s⟩

def shown (p : Path) : String := Text.Utf8.decodeLossy p.octets

/-- The last component, if it names a file. Repeated and final slashes, and components that are a
single dot, do not count. -/
def fileName? (p : Path) : Option (List UInt8) :=
  let components := (p.octets.splitOn 0x2F).filter fun c => c ≠ [] && c ≠ [0x2E]
  components.getLast?.filter (· ≠ [0x2E, 0x2E])

/-- What follows the last dot of the file name, in lower case; nothing if there is no dot behind the
first octet, or if it is no text. -/
def extension (p : Path) : String :=
  match p.fileName? with
  | none => ""
  | some name =>
    let reversed := name.reverse
    let after := (reversed.takeWhile (· ≠ 0x2E)).reverse
    let before := reversed.dropWhile (· ≠ 0x2E)
    if before.length ≤ 1 then ""
    else (((Text.Utf8.decode? after).getD "").map Char.toLower)

end Path

end SkillBoard
