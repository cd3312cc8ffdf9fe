/-
# Sums of floats

Adding floats rounds at every step, so the order of the additions is part of
the result. Long sums are split in halves and short ones go into eight running
sums, which keeps the error small; the few terms of a very short sum are added
from left to right.

Key definition: `pairwiseSum`.
-/

namespace Questionnaire

/-- The sum from left to right. -/
def plainSum (xs : List Float) : Float := xs.foldl (· + ·) 0.0

/-- The eight running sums of a list, one for each place modulo eight, and what
is left over at its end. -/
def eightSums : List Float → List Float → List Float × List Float
  | acc, a :: b :: c :: d :: e :: f :: g :: h :: rest =>
    eightSums (List.zipWith (· + ·) acc [a, b, c, d, e, f, g, h]) rest
  | acc, rest => (acc, rest)

/-- The sum of a list of at least eight terms by eight running sums. -/
def blockSum (xs : List Float) : Float :=
  match eightSums (xs.take 8) (xs.drop 8) with
  | ([a, b, c, d, e, f, g, h], rest) =>
    rest.foldl (· + ·) (((a + b) + (c + d)) + ((e + f) + (g + h)))
  | (_, rest) => plainSum rest

/-- The sum of a list: from left to right under eight terms, by eight running
sums up to 128, and otherwise in two halves of which the first is a multiple of
eight long. -/
def halvedSum (xs : List Float) : Float :=
  if xs.length < 8 then plainSum xs
  else if xs.length ≤ 128 then blockSum xs
  else
    let half := xs.length / 2 - xs.length / 2 % 8
    halvedSum (xs.take half) + halvedSum (xs.drop half)
termination_by xs.length
decreasing_by
  · simp only [List.length_take]; omega
  · simp only [List.length_drop]; omega

/-- The sum of a list, added to zero: negative zeros alone sum up to zero. -/
def pairwiseSum (xs : List Float) : Float := 0.0 + halvedSum xs

end Questionnaire
