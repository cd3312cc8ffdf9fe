/-
# The chi-squared test of independence

Each cell of a table of counts is compared with what its row and its column let
expect. Cells that cannot be expected are left out, and only rows and columns
that are not empty count for the degrees of freedom.
-/
import Questionnaire.Stats.Outcome
import Questionnaire.Stats.Sum
import Questionnaire.Stats.Tail

namespace Questionnaire.Stats

/-- A table of counts, row by row. All rows are equally long. -/
abbrev Table := List (List Float)

namespace Table

/-- The sum of each row. -/
def rowSums (t : Table) : List Float := t.map pairwiseSum

/-- The sum of each column. -/
def columnSums (t : Table) : List Float :=
  match t with
  | [] => []
  | row :: rest => rest.foldl (List.zipWith (· + ·)) row

/-- Each cell with what it lets expect, row by row. -/
def cells (t : Table) (total : Float) : List (Float × Float) :=
  let columns := t.columnSums
  (t.zip t.rowSums).flatMap fun (row, r) => (row.zip columns).map fun (x, c) => (x, r * c / total)

/-- How many sums are not zero. -/
def occupied (sums : List Float) : Nat := sums.countP (!· == 0.0)

/-- The degrees of freedom. -/
def freedom (t : Table) : Nat := (occupied t.rowSums - 1) * (occupied t.columnSums - 1)

end Table

/-- The chi-squared test of a table. -/
def chiSquared (t : Table) : Outcome :=
  let total := pairwiseSum t.flatten
  if total == 0.0 then .nothing
  else
    let expected := (t.cells total).filter fun (_, e) => 0.0 < e
    let statistic := pairwiseSum (expected.map fun (x, e) => (x - e) * (x - e) / e)
    ⟨statistic, if t.freedom = 0 then 1.0 else chiSquaredTail t.freedom statistic⟩

end Questionnaire.Stats
