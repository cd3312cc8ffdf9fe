/-
# Chains of fixed blocks

In natural order a fixed block leads on to the next one or to the destinations
of its branches. A chain follows such steps from the first block to an end.

Key definitions: `Block.starts`, `chains`, `orderedChains`.
-/
import Questionnaire.Survey.Branching
import Questionnaire.Survey.Order

namespace Questionnaire

/-- Where a respondent may go on after a block: places in the list of the blocks
that follow it, in rising order. A destination that does not follow is left out. -/
def Block.starts (b : Block) (rest : List Block) : Except Fault (List Nat) :=
  if b.isBranching then do
    let leadsOn ← b.fallsThrough
    return (List.range (rest.length + 1)).filter fun i =>
      (i == 0 && leadsOn) || b.destinations.any fun d => rest.findIdx? (·.key == d) == some i
  else .ok [0]

/-- All chains through a list of blocks. -/
def chains : List Block → Except Fault (List (List Block))
  | [] => .ok [[]]
  | b :: rest => do
    let starts ← b.starts rest
    let families ← starts.mapM fun i => chains (rest.drop i)
    return families.flatten.map (b :: ·)
termination_by blocks => blocks.length
decreasing_by simp only [List.length_drop, List.length_cons]; omega

/-- All chains through some blocks, taken in natural order. -/
def orderedChains (blocks : List Block) : Except Fault (List (List Block)) := do
  chains (← sortBlocks blocks)

end Questionnaire
