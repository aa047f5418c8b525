import SkillBoard.Csv.Reader

/-!
# Writing CSV

A field with a quote, a comma or a line end in it is written in quotes, its quotes doubled; any other
is written as it is. Each row ends with a line feed.
-/

namespace SkillBoard.Csv

def needsQuotes (f : Field) : Bool := f.any fun b => b == quote || b == comma || endsRow b

/-- The octets of a field, its quotes doubled. -/
def doubled (f : Field) : Field := f.flatMap fun b => if b = quote then [quote, quote] else [b]

def quoted (f : Field) : List UInt8 := quote :: doubled f ++ [quote]

def field (f : Field) : List UInt8 := if needsQuotes f then quoted f else f

def row (fields : List Field) : List UInt8 :=
  [comma].intercalate (fields.map field) ++ [lineFeed]

def write (rows : List (List Field)) : List UInt8 := rows.flatMap row

end SkillBoard.Csv
