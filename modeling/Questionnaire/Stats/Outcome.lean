/-
# The outcome of a test
-/

namespace Questionnaire.Stats

/-- What a test finds: its statistic, and how probable one at least as extreme
would be if nothing were there. -/
structure Outcome where
  statistic : Float
  pValue : Float
  deriving Repr, Inhabited

/-- The outcome of a test that has nothing to compare. -/
def Outcome.nothing : Outcome := ⟨0.0, 1.0⟩

end Questionnaire.Stats
