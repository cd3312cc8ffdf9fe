/-
# Ranks

The rank of a value is its place in rising order; equal values share the mean
of their places. Ranks are kept doubled, so that they are whole.
-/
import Questionnaire.Number

namespace Questionnaire.Stats

/-- Twice the rank of a value among some values: the places of the equal ones
begin after the smaller ones. -/
def doubledRank (values : List Number) (x : Number) : Nat :=
  2 * values.countP (·.blt x) + values.countP (·.beq x) + 1

/-- Twice the rank of each value. -/
def doubledRanks (values : List Number) : List Nat := values.map (doubledRank values)

/-- The values without repetitions. -/
def distinctValues : List Number → List Number
  | [] => []
  | x :: xs => if xs.any (·.beq x) then distinctValues xs else x :: distinctValues xs

/-- How often each value occurs. -/
def tieSizes (values : List Number) : List Nat :=
  (distinctValues values).map fun x => values.countP (·.beq x)

end Questionnaire.Stats
