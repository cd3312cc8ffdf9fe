/-
# Finding things in a survey

Look-ups by id give the first node in depth-first order. The block that holds
a question, the block at the top level above it and its wording variants are
found by the question's key, and a question from elsewhere has none of them.
-/
import Questionnaire.Document.Difference
import Questionnaire.Document.Display
import Questionnaire.Survey.Basic

namespace Questionnaire

/-- The fault of looking for a question in a survey with the name that does not have it. -/
def Question.strangerTo (q : Question) (survey : Document) : Fault :=
  .about [q.id, survey] (.strangerQuestion q.id.display survey.display)

namespace Survey

/-- The first question with the id. -/
def question? (s : Survey) (id : Document) : Option Question :=
  s.questions.find? (·.id.equals id)

/-- The first block with the id. -/
def block? (s : Survey) (id : Document) : Option Block := s.allBlocks.find? (·.id.equals id)

/-- The block with the key. -/
def blockAt? (s : Survey) (key : Key) : Option Block := s.allBlocks.find? (·.key == key)

/-- The id of the block with the key. -/
def blockId (s : Survey) (key : Key) : Document := ((s.blockAt? key).map (·.id)).getD .null

/-- The block that holds the question. -/
def containing (s : Survey) (q : Question) : Except Fault Block :=
  match s.allBlocks.find? (·.holds q) with
  | some b => .ok b
  | none => .error (q.strangerTo s.name)

/-- The block at the top level that the question is in or under. -/
def farthest (s : Survey) (q : Question) : Except Fault Block :=
  match s.blocks.find? (fun b => b.preorder.any (·.holds q)) with
  | some b => .ok b
  | none => .error (q.strangerTo s.name)

/-- The wordings of the question: all questions of a block of variants, and
otherwise the question alone. -/
def variants (s : Survey) (q : Question) : Except Fault (List Question) := do
  let b ← s.containing q
  return if b.paradigm = .all then b.questions else [q]

/-- The distance between the rows of a question and of a choice. -/
def rowOffset (q : Question) (c : Choice) : Except Fault Document.Difference := q.row.minus c.row

/-- Those of the choices of a question that are at a distance from it. -/
def choicesAt (offset : Document.Difference) (q : Question) : List Choice → Except Fault (List Choice)
  | [] => .ok []
  | c :: cs => do
    let here ← rowOffset q c
    let more ← choicesAt offset q cs
    return if here == offset then c :: more else more

/-- The choices that say the same as `c` in the wordings of the question: those
at the same distance from their question. -/
def equivalentChoices (s : Survey) (q : Question) (c : Choice) : Except Fault (List Choice) := do
  let offset ← rowOffset q c
  let wordings ← s.variants q
  return (← wordings.mapM fun v => choicesAt offset v v.choices).flatten

end Survey

end Questionnaire
