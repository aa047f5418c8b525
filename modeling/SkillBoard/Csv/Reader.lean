/-!
# Reading CSV

A file is read one octet at a time by the machine `Scan`. Fields are separated by commas, rows by line
ends (either character ends a row), and rows without any octet do not count. A field is quoted if its
first octet is a quote; inside, two quotes stand for one, and what follows the closing quote belongs to
the field as it is.
-/

namespace SkillBoard.Csv

abbrev Field := List UInt8

def quote : UInt8 := 0x22

def comma : UInt8 := 0x2C

def lineFeed : UInt8 := 0x0A

def carriageReturn : UInt8 := 0x0D

def endsRow (b : UInt8) : Bool := b == lineFeed || b == carriageReturn

/-- Where the reader stands. -/
inductive Mode
  /-- Before the first octet of a row. -/
  | rowStart
  /-- Before the first octet of a field that is not the row's first. -/
  | fieldStart
  /-- In a field, outside quotes. -/
  | plain
  /-- Inside quotes. -/
  | quoted
  /-- Behind a quote that stood inside quotes. -/
  | quoteSeen
  deriving DecidableEq, Repr

/-- Rows, fields of the open row and octets of the open field, all backwards. -/
structure Scan where
  rows : List (List Field)
  fields : List Field
  octets : Field
  mode : Mode

namespace Scan

def start : Scan := ⟨[], [], [], .rowStart⟩

def endField (s : Scan) : Scan := ⟨s.rows, s.octets.reverse :: s.fields, [], .fieldStart⟩

def endRow (s : Scan) : Scan :=
  ⟨(s.octets.reverse :: s.fields).reverse :: s.rows, [], [], .rowStart⟩

def outside (s : Scan) (b : UInt8) : Scan :=
  if b = comma then s.endField
  else if endsRow b then s.endRow
  else { s with octets := b :: s.octets, mode := .plain }

/-- The next octet. -/
def step (s : Scan) (b : UInt8) : Scan :=
  match s.mode with
  | .rowStart =>
    if endsRow b then s else if b = quote then { s with mode := .quoted } else s.outside b
  | .fieldStart => if b = quote then { s with mode := .quoted } else s.outside b
  | .plain => s.outside b
  | .quoted =>
    if b = quote then { s with mode := .quoteSeen } else { s with octets := b :: s.octets }
  | .quoteSeen =>
    if b = quote then { s with octets := b :: s.octets, mode := .quoted } else s.outside b

/-- The rows once the file has ended; a row that is open is complete. -/
def finish (s : Scan) : List (List Field) :=
  match s.mode with
  | .rowStart => s.rows.reverse
  | _ => s.endRow.rows.reverse

end Scan

/-- A file without the mark that may stand in front of a UTF-8 text. -/
def withoutMark : List UInt8 → List UInt8
  | 0xEF :: 0xBB :: 0xBF :: rest => rest
  | bytes => bytes

def rows (bytes : List UInt8) : List (List Field) :=
  ((withoutMark bytes).foldl Scan.step Scan.start).finish

end SkillBoard.Csv
