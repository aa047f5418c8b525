/-!
# Stable sorting

`stableSort` takes the elements one by one and puts each behind the last one that it does not come
before, so elements that are not told apart keep their order.
-/

namespace SkillBoard

/-- A sorted list, given backwards, with one more element: it goes behind the last one that it does
not come before. -/
def place (before : α → α → Bool) (x : α) : List α → List α
  | [] => [x]
  | y :: ys => if before x y then y :: place before x ys else x :: y :: ys

/-- The elements in order, ties in their order of arrival. -/
def stableSort (before : α → α → Bool) (xs : List α) : List α :=
  (xs.foldl (fun done x => place before x done) []).reverse

end SkillBoard
