/-
# Wording bias

Do the wordings of a question draw different answers? Each pair of comparable
wordings in a block of variants is compared.
-/
import Questionnaire.Bias.Basic

namespace Questionnaire

/-- The pairs of wordings to compare, with the block they are in. -/
def Survey.wordingPairs (s : Survey) : List (Block × Question × Question) :=
  (s.allBlocks.filter fun b => b.paradigm = .all).flatMap fun b =>
    (laterPairs (b.questions.filter (·.isComparable))).map (b, ·)

/-- The answers that responses give to a question. -/
def answersTo (q : Question) (responses : List Response) : List Choice :=
  responses.filterMap (·.firstChoice? q)

/-- Compares the answers to two wordings. -/
def compareWordings (responses : List Response) (q r : Question) : Except Fault Comparison := do
  let xs := answersTo q responses
  let ys := answersTo r responses
  let (coefficient, outcome) ← compareRanks (q.isOrdered && r.isOrdered) q r xs ys
  return ⟨coefficient, outcome.statistic, outcome.pValue, q, r, xs.length, ys.length⟩

/-- The comparisons of all wordings, with the block they are in. -/
def wordingBiases (s : Survey) (responses : List Response) :
    Except Fault (List (Block × Comparison)) :=
  s.wordingPairs.mapM fun (b, q, r) => do return (b, ← compareWordings responses q r)

end Questionnaire
