/-
# What a respondent sees of a block

A respondent sees all questions in and under a block in an arranged order, but
of a block of variants that is inside another block only one question. The
choices of a question are shown in source order, reversed or shuffled, as the
question allows.

Key definitions: `Block.expand`, `Question.present`, `Survey.arrangeBlocks`.
-/
import Questionnaire.Traversal.Arrangement
import Questionnaire.Survey.Order
import Questionnaire.Response.Basic

namespace Questionnaire

/-- One of the questions of a block of variants. -/
def Block.pickVariant (b : Block) : Trial Question := fun g =>
  let (i, g) := g.below b.questions.length
  match b.questions[i]? with
  | some q => .ok (q, g)
  | none => .error (.about [b.id] (.variantsWithoutQuestions b.id.display))

/-- The questions that a respondent sees in and under the block, in order. -/
def Block.expand (b : Block) (g : Gen) : Except Fault (List Question × Gen) :=
  if b.contentsSize = 0 then .error (.about [b.id] (.emptyContents b.id.display))
  else do
    let (nodes, g) ← arrange b.questions b.subBlocks.attach (·.val.isRandomizable) g
    let (parts, g) ← Gen.tryEach (fun
      | .inl q, g => .ok ([q], g)
      | .inr ⟨c, _⟩, g =>
        if c.paradigm = .all then do
          let (q, g) ← c.pickVariant g
          return ([q], g)
        else c.expand g) nodes g
    return (parts.flatten, g)
termination_by sizeOf b
decreasing_by exact Block.sizeOf_subBlock ‹_›

/-- The choices of a question in the order of display. -/
def Question.displayOrder (q : Question) : Draw (List Choice) := fun g =>
  if !q.isRandomized then (q.choices, g)
  else if q.isOrdered then
    let (heads, g) := g.coin
    (if heads then q.choices.reverse else q.choices, g)
  else
    let (order, g) := Gen.permutation q.choices.length g
    (order.filterMap (q.choices[·]?), g)

/-- The choices of a question with their places in the order of display. -/
def Question.present (q : Question) : Draw (List Selection) := fun g =>
  let (choices, g) := q.displayOrder g
  (choices.zipIdx.map fun (c, i) => ⟨c, .int i⟩, g)

/-- The blocks at the top level in the order in which one respondent meets them. -/
def Survey.arrangeBlocks (s : Survey) : Trial (List Block) := fun g =>
  if s.blocks.isEmpty then .error (.about [s.name] (.noTopLevelBlocks s.name.display))
  else do
    let blocks ← sortBlocks s.blocks
    let (nodes, g) ← arrange ([] : List Empty) blocks (·.isRandomizable) g
    return (nodes.filterMap (·.getRight?), g)

end Questionnaire
