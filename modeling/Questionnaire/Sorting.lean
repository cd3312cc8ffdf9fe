/-
# Sorting by comparisons that may fail

Where comparing two things may fail, or where they need not have an order, it
matters which of them are compared. The things at the front that are in order
already are kept, or turned round if they fall; each later one is then put in
its place, which is found by halving.

Not covered: of 64 things or more, runs are put in order for themselves and then
merged, which compares others of them.

Key definitions: `Sorting.firstRun`, `Sorting.placeBetween`, `sortedBy`.
-/

namespace Questionnaire

variable {α ε : Type} (before : α → α → Except ε Bool)

namespace Sorting

/-- How a run goes on after its last thing, each thing before the one in front of it if the run is
falling, and none if it is not; and what is left. -/
def runOn (falling : Bool) (last : α) : List α → Except ε (List α × List α)
  | [] => .ok ([], [])
  | x :: xs => do
    if (← before x last) == falling then
      let (run, rest) ← runOn falling x xs
      return (x :: run, rest)
    else return ([], x :: xs)

/-- The things at the front that are in order, or fall and are turned round, and the others. -/
def firstRun : List α → Except ε (List α × List α)
  | x :: y :: rest => do
    let falling ← before y x
    let (run, rest) ← runOn before falling y rest
    return (if falling then (x :: y :: run).reverse else x :: y :: run, rest)
  | xs => .ok (xs, [])

/-- The place of a thing in a list between two places: before those that it is before. -/
def placeBetween (xs : List α) (x : α) (low high : Nat) : Except ε Nat :=
  if low < high then do
    let middle := (low + high) / 2
    if ← before x (xs.getD middle x) then placeBetween xs x low middle
    else placeBetween xs x (middle + 1) high
  else .ok low
termination_by high - low

/-- Puts a thing in its place. -/
def insertInOrder (xs : List α) (x : α) : Except ε (List α) := do
  let place ← placeBetween before xs x 0 xs.length
  return xs.take place ++ x :: xs.drop place

end Sorting

open Sorting

/-- Things in order; those of which neither is before the other keep their order. -/
def sortedBy (xs : List α) : Except ε (List α) := do
  let (run, rest) ← firstRun before xs
  rest.foldlM (insertInOrder before) run

end Questionnaire
