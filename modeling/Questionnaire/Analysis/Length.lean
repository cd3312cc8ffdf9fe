/-
# The lengths of paths

The length of a path is the number of questions on a tour of its blocks. The
shortest and the longest path bound what a respondent may be asked; the average
over simulated respondents says what to expect.
-/
import Questionnaire.Whole
import Questionnaire.Path.Basic
import Questionnaire.Path.Tour
import Questionnaire.Respondent
import Questionnaire.Decimal.Style
import Questionnaire.Document.Grid

namespace Questionnaire.Survey

/-- The length of each path. -/
def pathLengths (s : Survey) : Except Fault (List Nat) := do
  (← s.paths).mapM fun p => do return (← tour p (.ofSeed 0)).1.length

/-- The length of the shortest path. -/
def shortestLength (s : Survey) : Except Fault Nat := do
  match (← s.pathLengths).min? with
  | some n => return n
  | none => throw .unsuitable

/-- The length of the longest path. -/
def longestLength (s : Survey) : Except Fault Nat := do
  match (← s.pathLengths).max? with
  | some n => return n
  | none => throw .unsuitable

/-- What finding the shortest path has to say. -/
def shortestNotes (s : Survey) : List Note :=
  s.pathNotes ++ match s.shortestLength with
    | .ok n => [⟨.info, s!"Survey {s.name.display} has minimum path length of {n}"⟩]
    | .error _ => []

/-- What finding the longest path has to say. -/
def longestNotes (s : Survey) : List Note :=
  s.pathNotes ++ match s.longestLength with
    | .ok n => [⟨.info, s!"Survey {s.name.display} has maximum path length of {n}"⟩]
    | .error _ => []

/-- How many answers count of a respondent who answers at random. -/
def countedByChance (s : Survey) : Trial Nat := fun g => do
  let (r, g) ← Habit.uniform.respond s .null g
  return (r.counted.length, g)

/-- The average of a total over `n` samples; over none it is zero. -/
def average (total : Nat) (n : Int) : Except Fault Float := do
  if n = 0 then return 0.0 else return Float.ofNat total / (← Document.floatOf (.int n))

/-- The average number of answers that count, over as many respondents who answer at random as
`samples` says, which must be a whole number. -/
def averageLength (s : Survey) (samples : Document) : Trial Float := fun g => do
  let n ← samples.whole
  let (lengths, g) ← Gen.tryEach (fun _ g => s.countedByChance g) (List.range n.toNat) g
  return (← average (sumOf lengths) n, g)

/-- What finding an average length has to say. -/
def averageNotes (s : Survey) (average : Float) : List Note :=
  [⟨.info, s!"Survey {s.name.display} has average path length of {writeSixPlaces average}"⟩]

end Questionnaire.Survey
