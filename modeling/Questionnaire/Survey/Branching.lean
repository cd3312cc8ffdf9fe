/-
# The ways out of a block

The questions of a block and of the blocks under it that send respondents
elsewhere, where they may send them, and whether some choice does not.
-/
import Questionnaire.Fault
import Questionnaire.Survey.Basic

namespace Questionnaire

/-- The block that a choice sends the respondent to. The choice must be fit to be looked up. -/
def Question.destination (q : Question) (c : Choice) : Except Fault (Option Key) :=
  if c.isKey then .ok (q.destination? c) else .error .illTyped

namespace Block

/-- The block's own questions that branch, its branch question first. -/
def ownBranchQuestions (b : Block) : List Question :=
  let first := b.branchQuestion?.toList.filter (·.isBranch)
  let others := b.questions.filter fun q =>
    q.isBranch && !b.branchQuestion?.any (·.key == q.key)
  first ++ others

/-- The questions in or under the block that branch. -/
def branchQuestions (b : Block) : List Question := b.preorder.flatMap ownBranchQuestions

/-- Whether some question in or under the block branches. -/
def isBranching (b : Block) : Bool := !b.branchQuestions.isEmpty

/-- The blocks that a choice in or under the block leads to. -/
def destinations (b : Block) : List Key := b.branchQuestions.flatMap fun q => q.branches.map (·.2)

/-- Whether some choice of the questions leads nowhere else. A choice that cannot be looked up is
at fault, unless one before it leads nowhere. -/
def leadsOn : List (Question × Choice) → Except Fault Bool
  | [] => .ok false
  | (q, c) :: rest => do
    if (← q.destination c).isNone then return true else leadsOn rest

/-- Whether some choice of a branching question leads on to the next block. -/
def fallsThrough (b : Block) : Except Fault Bool :=
  leadsOn (b.branchQuestions.flatMap fun q => q.choices.map (q, ·))

end Block

end Questionnaire
