/-
# Tables of ranks

The rank of a choice is its place in source order, so the samples of one
question, or of wordings with scales of equal length, compare rank by rank.
-/
import Questionnaire.Fault
import Questionnaire.Survey.Basic

namespace Questionnaire.Stats

/-- The rank of a choice that must be one of the question's. -/
def rankOf (q : Question) (c : Choice) : Except Fault Nat :=
  match q.rank? c with
  | some rank => .ok rank
  | none => .error .unsuitable

/-- The ranks of some choices. -/
def ranksOf (q : Question) (cs : List Choice) : Except Fault (List Nat) := cs.mapM (rankOf q)

/-- How often each rank up to `size` is in each sample: a row for each rank, a
column for each sample. -/
def rankTable (size : Nat) (samples : List (List Nat)) : List (List Nat) :=
  (List.range size).map fun i => samples.map (·.count (i + 1))

end Questionnaire.Stats
