/-
# The Mann–Whitney test

How often values of one sample exceed those of another. If no value occurs
twice and one of the samples is small, the probability is exact: the share of
the ways to spread the ranks over the samples. Otherwise a normal variable
stands in, corrected for ties and for the step to whole numbers.

Key definitions: `exceedings`, `spreads`, `mannWhitney`.
-/
import Questionnaire.Whole
import Questionnaire.Stats.Outcome
import Questionnaire.Stats.Rank
import Questionnaire.Stats.Tail

namespace Questionnaire.Stats

/-- Twice the number of pairs in which the first sample exceeds the second; equal pairs
count half. -/
def exceedings (xs ys : List Number) : Nat :=
  sumOf ((doubledRanks (xs ++ ys)).take xs.length) - xs.length * (xs.length + 1)

/-- The sum of two lists, place by place; the shorter one goes on with zeros. -/
def addCounts : List Nat → List Nat → List Nat
  | [], ys => ys
  | xs, [] => xs
  | x :: xs, y :: ys => (x + y) :: addCounts xs ys

/-- The ways to spread ranks over a sample of one more value than before and
samples of `n, n + 1, …`: the greatest rank is in the first sample and exceeds
all others, or in the second one. -/
def spreadsAfter : Nat → List Nat → List (List Nat) → List (List Nat)
  | _, _, [] => []
  | n, left, above :: row =>
    let here := addCounts (List.replicate n 0 ++ above) left
    here :: spreadsAfter (n + 1) here row

/-- For samples of `m` and of `0, …, n` values, in how many ways the first
exceeds the second in `0, 1, …` pairs. -/
def spreads : Nat → Nat → List (List Nat)
  | 0, n => List.replicate (n + 1) [1]
  | m + 1, n => spreadsAfter 0 [] (spreads m n)

/-- The share of the ways in which one sample exceeds the other in at least `u` pairs. -/
def exactTail (m n u : Nat) : Float :=
  let ways := ((spreads (min m n) (max m n))[max m n]?).getD []
  Float.ofNat (sumOf (ways.drop u)) / Float.ofNat (sumOf ways)

/-- The normal variable that stands for exceeding in at least `doubled / 2` of the pairs. -/
def standardized (values : List Number) (m n doubled : Nat) : Float :=
  let pairs := Float.ofNat (m * n)
  let size := Float.ofNat (m + n)
  let ties := Float.ofNat (sumOf ((tieSizes values).map fun t => t * t * t - t))
  let spread := Float.sqrt (pairs / 12.0 * ((size + 1.0) - ties / (size * (size - 1.0))))
  (Float.ofNat doubled / 2.0 - pairs / 2.0 - 0.5) / spread

/-- The size from which on a sample is not small. -/
def smallSample : Nat := 8

/-- The two-sided test of two samples. -/
def mannWhitney (xs ys : List Number) : Outcome :=
  if xs.isEmpty || ys.isEmpty then .nothing
  else
    let values := xs ++ ys
    let first := exceedings xs ys
    let extreme := max first (2 * xs.length * ys.length - first)
    let noTies := (tieSizes values).all (· == 1)
    let tail :=
      if noTies && (xs.length ≤ smallSample || ys.length ≤ smallSample) then
        exactTail xs.length ys.length (extreme / 2)
      else normalTail (standardized values xs.length ys.length extreme)
    let p := 2.0 * tail
    ⟨Float.ofNat first / 2.0, if p.isNaN || 1.0 < p then 1.0 else p⟩

end Questionnaire.Stats
