/-
# Correlation by chance

How strongly do answers correlate that were given at random? Respondents are
simulated and each pair of comparable questions is correlated over those who
answered both. This is what to expect of a survey of that size before anything
is found in it.
-/
import Questionnaire.Bias.Basic
import Questionnaire.Respondent
import Questionnaire.Stats.Spearman
import Questionnaire.Stats.CramersV

namespace Questionnaire

/-- The answers of those who answered both questions. -/
def pairedAnswers (q r : Question) (responses : List Response) : List (Choice × Choice) :=
  responses.filterMap fun response => do
    return (← response.firstChoice? q, ← response.firstChoice? r)

/-- Correlates paired answers: by rank if both questions are ordered. -/
def correlate (q r : Question) (xs ys : List Choice) :
    Except Fault (Coefficient × Stats.Outcome) := do
  if q.isOrdered && r.isOrdered then
    let number (n : Nat) : Document := .int n
    let ranks ← Stats.ranksOf q xs
    let others ← Stats.ranksOf r ys
    return (.rho, ← Stats.spearman (ranks.map number) (others.map number))
  else return (.v, ← Stats.cramersV q r xs ys)

/-- Correlates the answers to two questions; none if nobody answered both. -/
def correlateAnswers (responses : List Response) (q r : Question) : Noting (Option Comparison) := do
  let (xs, ys) := (pairedAnswers q r responses).unzip
  if xs.isEmpty then
    makeNotes [⟨.warning,
      s!"Questions {q.id.display} and {r.id.display} were never answered together; pair skipped."⟩]
    return none
  else
    if !(q.isOrdered && r.isOrdered) then makeNotes (Stats.cramersNotes q r (xs.zip ys))
    let (coefficient, outcome) ← (correlate q r xs ys : Except Fault _)
    return some ⟨coefficient, outcome.statistic, outcome.pValue, q, r, xs.length, ys.length⟩

/-- The correlations among `n` respondents who answer at random. -/
def chanceCorrelations (s : Survey) (n : Nat) (g : Gen) : Noting (List Comparison) := do
  let (responses, _) ← (simulate (Habit.uniform.respond s) 0 n g : Except Fault _)
  let found ← (laterPairs s.comparableQuestions).mapM fun (q, r) => correlateAnswers responses q r
  return found.filterMap id

end Questionnaire
