/-!
# Grouping by key

A list of values filed under integer keys, in ascending order of the keys, each key once. `fileUnder`
changes the value under one key, or enters a new one.
-/

namespace SkillBoard

/-- The value under `key` becomes `f` of the old one, if there is one. -/
def fileUnder (key : Int) (f : Option α → α) : List (Int × α) → List (Int × α)
  | [] => [(key, f none)]
  | (k, a) :: rest =>
    if key < k then (key, f none) :: (k, a) :: rest
    else if key = k then (k, f (some a)) :: rest
    else (k, a) :: fileUnder key f rest

/-- The integers of a list in ascending order, each once. -/
def ascending (keys : List Int) : List Int :=
  (keys.foldl (fun seen k => fileUnder k (fun _ => ()) seen) []).map (·.1)

end SkillBoard
