import SkillBoard.Text.CaseTable

/-!
# Lower case

Two ways to ignore case, which differ in one letter.

* `lowerChar` maps a character by itself; `foldCase` does so along a text, and sorting compares it.
* `lowercase` is the lower-case form of a text: a capital sigma that ends a word becomes `ς`. Searching
  uses it.
-/

namespace SkillBoard.Text

def CaseRange.covers (r : CaseRange) (c : Char) : Bool :=
  r.first ≤ c.toNat && c.toNat ≤ r.last && (c.toNat - r.first) % r.step == 0

/-- The lower-case form of one character by itself: of `İ` two characters, of any other one. -/
def lowerChar (c : Char) : List Char :=
  if c = 'İ' then ['i', '\u0307']
  else
    match lowerRanges.find? (·.covers c) with
    | some r => [Char.ofNat (c.toNat + r.shift).toNat]
    | none => [c]

def inRuns (runs : Array (Nat × Nat)) (c : Char) : Bool :=
  runs.any fun (first, last) => first ≤ c.toNat && c.toNat ≤ last

/-- The property `Cased`. -/
def isCased (c : Char) : Bool := inRuns casedRanges c

/-- The property `Case_Ignorable`. -/
def isCaseIgnorable (c : Char) : Bool := inRuns caseIgnorableRanges c

/-- Whether the first character that is not ignorable is a cased one. -/
def meetsCased (s : List Char) : Bool :=
  match s.find? (!isCaseIgnorable ·) with
  | some c => isCased c
  | none => false

/-- Whether a sigma between these texts ends a word; the text before it is given backwards. -/
def endsWord (before after : List Char) : Bool := meetsCased before && !meetsCased after

/-- The lower-case form of a text behind what was read already, given backwards. -/
def lowerAfter (before : List Char) : List Char → List Char
  | [] => []
  | c :: rest =>
    (if c = 'Σ' then [if endsWord before rest then 'ς' else 'σ'] else lowerChar c) ++
      lowerAfter (c :: before) rest

def lowercase (s : String) : String := String.ofList (lowerAfter [] s.toList)

/-- The text with each character in lower case by itself. -/
def foldCase (s : String) : List Char := s.toList.flatMap lowerChar

end SkillBoard.Text
