/-
# The questions along a path

A tour goes through blocks in natural order and takes all questions in and
under them; of every block of variants it takes one.

Key definitions: `Block.tour`, `tour`.
-/
import Questionnaire.Traversal.Expansion

namespace Questionnaire

/-- The block's own questions on a tour: one of a block of variants, else all. -/
def Block.ownTour (b : Block) : Draw (List Question) := fun g =>
  if b.paradigm = .all ∧ b.questions ≠ [] then
    let (i, g) := g.below b.questions.length
    (b.questions[i]?.toList, g)
  else (b.questions, g)

/-- The questions in and under a block on a tour. -/
def Block.tour (b : Block) (g : Gen) : Except Fault (List Question × Gen) := do
  let (own, g) := b.ownTour g
  let inner ← inNaturalOrder (·.val) b.subBlocks.attach
  let (rest, g) ← Gen.tryEach (fun c g => c.val.tour g) inner g
  return (own ++ rest.flatten, g)
termination_by sizeOf b
decreasing_by exact Block.sizeOf_subBlock c.property

/-- The questions in and under some blocks on a tour. -/
def tour (blocks : List Block) : Trial (List Question) := fun g => do
  let blocks ← sortBlocks blocks
  let (parts, g) ← Gen.tryEach Block.tour blocks g
  return (parts.flatten, g)

end Questionnaire
