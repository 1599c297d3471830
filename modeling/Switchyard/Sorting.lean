/-!
# Sorting by insertion

A list is put in order by insertion: the run it begins with is kept, or turned round if it falls,
and every further item is placed by halving (`place`), behind all items that it is not below. For a
total order this is the stable order; where items cannot be compared, as a number that is not a
number with others, it says what becomes of them.
-/

namespace Switchyard.Sorting

variable {α : Type} (below : α → α → Bool)

/-- A list of items after `last` cut where `continues` first fails between two neighbours. -/
def run (continues : α → α → Bool) (last : α) : List α → List α × List α
  | [] => ([], [])
  | x :: rest =>
    if continues x last then
      let (more, behind) := run continues x rest
      (x :: more, behind)
    else ([], x :: rest)

/-- The run that a list begins with, in rising order, and what is behind it. -/
def firstRun : List α → List α × List α
  | [] => ([], [])
  | [x] => ([x], [])
  | x :: y :: rest =>
    if below y x then
      let (falling, behind) := run below x (y :: rest)
      ((x :: falling).reverse, behind)
    else
      let (rising, behind) := run (fun b a => !below b a) x (y :: rest)
      (x :: rising, behind)

/-- A list with an item placed by halving; the fuel bounds the halvings. -/
def placeWithin (x : α) : (fuel : Nat) → List α → List α
  | 0, xs => x :: xs
  | fuel + 1, xs =>
    match xs.drop (xs.length / 2) with
    | [] => [x]
    | middle :: behind =>
      let before := xs.take (xs.length / 2)
      if below x middle then placeWithin x fuel before ++ middle :: behind
      else before ++ middle :: placeWithin x fuel behind

/-- A list with an item placed by halving. -/
def place (x : α) (xs : List α) : List α :=
  placeWithin below x (xs.length + 1) xs

/-- A list put in order. -/
def sort (xs : List α) : List α :=
  let (start, rest) := firstRun below xs
  rest.foldl (fun sorted x => place below x sorted) start

end Switchyard.Sorting
