/-
# Floats in rising order

A float that is no number is neither below nor above any other, so where the
others come to lie beside it depends on the way they are ordered.

Key definition: `rising`.
-/
import Questionnaire.Sorting

namespace Questionnaire

/-- Whether a float is below another one; this can always be said. -/
def isBelow (x y : Float) : Except Empty Bool := .ok (decide (x < y))

/-- Floats in rising order; those that are equal keep their order. -/
def rising (xs : List Float) : List Float :=
  if xs.any (·.isNaN) then
    match sortedBy isBelow xs with
    | .ok ys => ys
    | .error impossible => nomatch impossible
  else xs.mergeSort fun x y => decide (x ≤ y)

end Questionnaire
