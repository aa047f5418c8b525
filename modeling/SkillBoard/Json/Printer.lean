import SkillBoard.Decimal.Layout
import SkillBoard.Json.Basic

/-!
# Writing JSON

`pretty` writes one item or member a line, two spaces deeper in each container; an empty container
stays on its line. Strings escape the quote, the backslash and the control characters.
-/

namespace SkillBoard.Json

/-- A number, or null for a value that is not finite. -/
def ofFloat (x : Float) : Json := if x.isFinite then .real x else .null

def escape (c : Char) : List Char :=
  if c = '"' then ['\\', '"']
  else if c = '\\' then ['\\', '\\']
  else if c = '\x08' then ['\\', 'b']
  else if c = '\x0c' then ['\\', 'f']
  else if c = '\n' then ['\\', 'n']
  else if c = '\r' then ['\\', 'r']
  else if c = '\t' then ['\\', 't']
  else if c.toNat < 0x20 then
    ['\\', 'u', '0', '0', Nat.digitChar (c.toNat / 16), Nat.digitChar (c.toNat % 16)]
  else [c]

def quoted (s : String) : List Char := '"' :: s.toList.flatMap escape ++ ['"']

def newline (depth : Nat) : List Char := '\n' :: List.replicate (2 * depth) ' '

mutual

def pretty (depth : Nat) : Json → List Char
  | .null => "null".toList
  | .bool true => "true".toList
  | .bool false => "false".toList
  | .int i => (toString i).toList
  | .real x => (Decimal.Layout.json.render x).toList
  | .text s => quoted s
  | .list [] => ['[', ']']
  | .list (v :: rest) =>
    '[' :: newline (depth + 1) ++ pretty (depth + 1) v ++ prettyItems (depth + 1) rest ++
      newline depth ++ [']']
  | .record [] => ['\x7b', '\x7d']
  | .record ((key, v) :: rest) =>
    '\x7b' :: newline (depth + 1) ++ quoted key ++ ':' :: ' ' :: pretty (depth + 1) v ++
      prettyMembers (depth + 1) rest ++ newline depth ++ ['\x7d']

def prettyItems (depth : Nat) : List Json → List Char
  | [] => []
  | v :: rest => ',' :: newline depth ++ pretty depth v ++ prettyItems depth rest

def prettyMembers (depth : Nat) : List (String × Json) → List Char
  | [] => []
  | (key, v) :: rest =>
    ',' :: newline depth ++ quoted key ++ ':' :: ' ' :: pretty depth v ++ prettyMembers depth rest

end

def render (v : Json) : String := String.ofList (pretty 0 v)

end SkillBoard.Json
