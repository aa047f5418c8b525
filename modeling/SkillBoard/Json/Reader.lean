import SkillBoard.Json.Token

/-!
# Reading JSON

Tokens are put together by a machine that keeps the containers it is inside of. `parse?` reads a text
with exactly one value; containers nest at most `maxDepth` deep.
-/

namespace SkillBoard.Json

/-- A container part way through, its content backwards. -/
inductive Frame
  | items (done : List Json)
  | members (done : List (String × Json))
  /-- A record whose member of this key has no value yet. -/
  | member (done : List (String × Json)) (key : String)

/-- What may come next. -/
inductive Expected
  | value
  | valueOrClose
  | key
  | keyOrClose
  | colon
  | commaOrClose
  /-- Nothing: the value is complete. -/
  | nothing (value : Json)

/-- How deep containers may nest. -/
def maxDepth : Nat := 127

/-- The containers around the reader, innermost first, and what it expects. -/
structure Reader where
  frames : List Frame
  expected : Expected

namespace Reader

def start : Reader := ⟨[], .value⟩

/-- A complete value goes into the innermost container. -/
def deliver (frames : List Frame) (v : Json) : Option Reader :=
  match frames with
  | [] => some ⟨[], .nothing v⟩
  | .items done :: rest => some ⟨.items (v :: done) :: rest, .commaOrClose⟩
  | .member done key :: rest => some ⟨.members ((key, v) :: done) :: rest, .commaOrClose⟩
  | .members _ :: _ => none

def enter (frames : List Frame) (f : Frame) (e : Expected) : Option Reader :=
  if frames.length < maxDepth then some ⟨f :: frames, e⟩ else none

def beginValue (frames : List Frame) : Token → Option Reader
  | .scalar v => deliver frames v
  | .openList => enter frames (.items []) .valueOrClose
  | .openRecord => enter frames (.members []) .keyOrClose
  | _ => none

def close (frames : List Frame) (t : Token) : Option Reader :=
  match frames, t with
  | .items done :: rest, .closeList => deliver rest (.list done.reverse)
  | .members done :: rest, .closeRecord => deliver rest (.record done.reverse)
  | _, _ => none

def beginMember (frames : List Frame) (t : Token) : Option Reader :=
  match frames, t with
  | .members done :: rest, .scalar (.text key) => some ⟨.member done key :: rest, .colon⟩
  | _, _ => none

/-- The next token. -/
def step? (r : Reader) (t : Token) : Option Reader :=
  match r.expected, t with
  | .value, t => beginValue r.frames t
  | .valueOrClose, .closeList => close r.frames t
  | .valueOrClose, t => beginValue r.frames t
  | .key, t => beginMember r.frames t
  | .keyOrClose, .closeRecord => close r.frames t
  | .keyOrClose, t => beginMember r.frames t
  | .colon, .colon => some ⟨r.frames, .value⟩
  | .commaOrClose, .comma =>
    match r.frames with
    | .items _ :: _ => some ⟨r.frames, .value⟩
    | .members _ :: _ => some ⟨r.frames, .key⟩
    | _ => none
  | .commaOrClose, t => close r.frames t
  | _, _ => none

def finish? (r : Reader) : Option Json :=
  match r.expected with
  | .nothing v => some v
  | _ => none

end Reader

def ofTokens? (ts : List Token) : Option Json :=
  (ts.foldlM Reader.step? Reader.start).bind Reader.finish?

def parse? (s : String) : Option Json := (tokens? s.toList).bind ofTokens?

end SkillBoard.Json
