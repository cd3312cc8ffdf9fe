/-
# Comparisons of questions

Answers to two questions, or two samples of answers to one, are compared by a
test. Only questions of which one choice out of several is selected take part.

Key definitions: `Comparison`, `isComparable`, `compareRanks`.
-/
import Questionnaire.Response.Basic
import Questionnaire.Stats.ChiSquared
import Questionnaire.Stats.MannWhitney
import Questionnaire.Stats.RankTable

namespace Questionnaire

open Stats (Outcome)

/-- What the value of a comparison is. -/
inductive Coefficient where
  | rho
  | chi
  | u
  | v
  deriving DecidableEq, Repr, Inhabited

/-- The name of a coefficient in documents. -/
def Coefficient.name : Coefficient → String
  | rho => "rho"
  | chi => "chi"
  | u => "U"
  | v => "V"

/-- The result of comparing two questions. -/
structure Comparison where
  coefficient : Coefficient
  value : Float
  pValue : Float
  first : Question
  second : Question
  /-- How many answers there were on each side. -/
  firstSize : Nat
  secondSize : Nat
  deriving Repr, Inhabited

/-- Whether a comparison finds a difference at a level, which must be a number. -/
def Comparison.isBiased (c : Comparison) (alpha : Document) : Except Fault Bool := do
  return (Number.float c.pValue).blt (← alpha.number)

/-- Whether a question takes part in comparisons. -/
def Question.isComparable (q : Question) : Bool :=
  q.isExclusive && !q.isFreetext && !q.isCustom && !q.choices.isEmpty

/-- The comparable questions of a survey. -/
def Survey.comparableQuestions (s : Survey) : List Question := s.questions.filter (·.isComparable)

/-- The pairs of a list: each element with each later one. -/
def laterPairs {α : Type} : List α → List (α × α)
  | [] => []
  | x :: xs => xs.map (x, ·) ++ laterPairs xs

/-- The table of the ranks of two samples. -/
def twoSampleTable (size : Nat) (xs ys : List Nat) : Stats.Table :=
  (Stats.rankTable size [xs, ys]).map (·.map Float.ofNat)

/-- Compares answers to two questions by their ranks: by the order of the ranks
if it has a meaning, and otherwise rank by rank. -/
def compareRanks (ordered : Bool) (q r : Question) (xs ys : List Choice) :
    Except Fault (Coefficient × Outcome) :=
  if ordered then
    if xs.isEmpty || ys.isEmpty then .ok (.u, .nothing)
    else do
      let number (n : Nat) : Number := .int n
      let ranks ← Stats.ranksOf q xs
      let others ← Stats.ranksOf r ys
      return (.u, Stats.mannWhitney (ranks.map number) (others.map number))
  else do
    let ranks ← Stats.ranksOf q xs
    let others ← Stats.ranksOf r ys
    let size := max q.choices.length r.choices.length
    return (.chi, Stats.chiSquared (twoSampleTable size ranks others))

end Questionnaire
