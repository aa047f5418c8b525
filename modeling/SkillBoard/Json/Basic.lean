/-!
# JSON values

What a JSON text says, before anything is asked of it: `Json` is the type that the reader gives and the
printer takes.
-/

namespace SkillBoard

/-- A JSON value. Numbers without fraction and exponent are kept as integers; the members of a
record stand in the order of the text, repeated keys included. -/
inductive Json
  | null
  | bool (value : Bool)
  | int (value : Int)
  | real (value : Float)
  | text (value : String)
  | list (items : List Json)
  | record (members : List (String × Json))

end SkillBoard
