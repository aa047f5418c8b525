import SkillBoard.Json.Number

/-!
# Tokens of a JSON text

A text is read one character at a time by the machine `Lexer`: between tokens, inside a string (or one
of its escapes), or inside a bare word, which is a literal or a number. `tokens?` gives the tokens, or
nothing if a piece of the text is none.
-/

namespace SkillBoard.Json

/-- A piece of a JSON text: a bracket, a separator, or a value that has no parts. -/
inductive Token
  | openList
  | closeList
  | openRecord
  | closeRecord
  | colon
  | comma
  | scalar (value : Json)

namespace Token

def ofPunctuation? : Char → Option Token
  | '[' => some openList
  | ']' => some closeList
  | '\x7b' => some openRecord
  | '\x7d' => some closeRecord
  | ':' => some colon
  | ',' => some comma
  | _ => none

def ofWord? (word : List Char) : Option Token :=
  if word = "null".toList then some (scalar .null)
  else if word = "true".toList then some (scalar (.bool true))
  else if word = "false".toList then some (scalar (.bool false))
  else (number? word).map scalar

end Token

def isSpace (c : Char) : Bool := c == ' ' || c == '\t' || c == '\n' || c == '\r'

/-- Where the lexer stands. Characters read are kept backwards. -/
inductive Mode
  /-- Between tokens. -/
  | idle
  /-- In a string. -/
  | string (read : List Char)
  /-- In a string, behind a backslash. -/
  | escape (read : List Char)
  /-- In a string, inside the four digits of an escaped unit, perhaps behind an escaped first half of
  a pair. -/
  | unit (read : List Char) (first : Option Nat) (digits value : Nat)
  /-- In a string, behind an escaped first half of a pair. -/
  | half (read : List Char) (first : Nat)
  /-- In a string, behind such a half and a backslash. -/
  | halfEscape (read : List Char) (first : Nat)
  /-- In a bare word. -/
  | word (read : List Char)

def hexDigit? (c : Char) : Option Nat :=
  if c.isDigit then some (c.toNat - '0'.toNat)
  else if 'a' ≤ c ∧ c ≤ 'f' then some (c.toNat - 'a'.toNat + 10)
  else if 'A' ≤ c ∧ c ≤ 'F' then some (c.toNat - 'A'.toNat + 10)
  else none

/-- The character that a one-letter escape stands for. -/
def escaped? : Char → Option Char
  | '"' => some '"'
  | '\\' => some '\\'
  | '/' => some '/'
  | 'b' => some '\x08'
  | 'f' => some '\x0c'
  | 'n' => some '\n'
  | 'r' => some '\r'
  | 't' => some '\t'
  | _ => none

/-- Where an escaped unit leads: the first half of a pair asks for the second, and neither stands
alone. -/
def ofUnit? (read : List Char) (first : Option Nat) (value : Nat) : Option Mode :=
  match first with
  | some high =>
    if 0xDC00 ≤ value ∧ value ≤ 0xDFFF then
      some (.string (Char.ofNat (0x10000 + (high - 0xD800) * 0x400 + (value - 0xDC00)) :: read))
    else none
  | none =>
    if 0xD800 ≤ value ∧ value ≤ 0xDBFF then some (.half read value)
    else if 0xDC00 ≤ value ∧ value ≤ 0xDFFF then none
    else some (.string (Char.ofNat value :: read))

/-- The tokens read so far (backwards), and where the lexer stands. -/
structure Lexer where
  read : List Token
  mode : Mode

namespace Lexer

def start : Lexer := ⟨[], .idle⟩

def enter (read : List Token) (c : Char) : Lexer :=
  if isSpace c then ⟨read, .idle⟩
  else if c = '"' then ⟨read, .string []⟩
  else
    match Token.ofPunctuation? c with
    | some t => ⟨t :: read, .idle⟩
    | none => ⟨read, .word [c]⟩

def endsWord (c : Char) : Bool := isSpace c || c == '"' || (Token.ofPunctuation? c).isSome

/-- The next character. -/
def step? (l : Lexer) (c : Char) : Option Lexer :=
  match l.mode with
  | .idle => some (enter l.read c)
  | .string read =>
    if c = '"' then some ⟨.scalar (.text (String.ofList read.reverse)) :: l.read, .idle⟩
    else if c = '\\' then some ⟨l.read, .escape read⟩
    else if c.toNat < 0x20 then none
    else some ⟨l.read, .string (c :: read)⟩
  | .escape read =>
    if c = 'u' then some ⟨l.read, .unit read none 0 0⟩
    else (escaped? c).map fun e => ⟨l.read, .string (e :: read)⟩
  | .unit read first digits value => do
    let value := value * 16 + (← hexDigit? c)
    if digits < 3 then some ⟨l.read, .unit read first (digits + 1) value⟩
    else (ofUnit? read first value).map fun mode => ⟨l.read, mode⟩
  | .half read first => if c = '\\' then some ⟨l.read, .halfEscape read first⟩ else none
  | .halfEscape read first => if c = 'u' then some ⟨l.read, .unit read (some first) 0 0⟩ else none
  | .word read =>
    if endsWord c then (Token.ofWord? read.reverse).map fun t => enter (t :: l.read) c
    else some ⟨l.read, .word (c :: read)⟩

def finish? (l : Lexer) : Option (List Token) :=
  match l.mode with
  | .idle => some l.read.reverse
  | .word read => (Token.ofWord? read.reverse).map fun t => (t :: l.read).reverse
  | _ => none

end Lexer

def tokens? (s : List Char) : Option (List Token) :=
  (s.foldlM Lexer.step? Lexer.start).bind Lexer.finish?

end SkillBoard.Json
