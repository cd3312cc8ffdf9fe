/-
# Writing surveys

A survey is written with all its fields. A branch question and the blocks that
branches lead to are written by their ids.

An id that is a list or mapping is one and the same thing wherever the question
or block is named, and a YAML text shows that.

Key definitions: `Survey.toDocument`, `Survey.toYaml`.
-/
import Questionnaire.Document.Yaml.Writing
import Questionnaire.Survey.Index

namespace Questionnaire

/-- A choice with all its fields. -/
def Choice.toDocument (c : Choice) : Document :=
  .record [("id", c.id), ("text", c.text), ("source_row", c.row)]

/-- A question with all its fields; `blockId` names the blocks it leads to. -/
def Question.toDocument (blockId : Key → Document) (q : Question) : Document :=
  .record [
    ("id", q.id), ("text", q.text), ("options", .list (q.choices.map (·.toDocument))),
    ("exclusive", q.exclusive), ("ordered", q.ordered), ("randomize", q.randomize),
    ("freetext", q.freetext), ("custom", q.custom), ("source_row", q.row),
    ("branch_map", .map (Document.ofEntries
      (q.branches.map fun (c, target) => (c.id, blockId target))))]

/-- The id of the branch question, if there is one. -/
def branchQuestionId (questions : List Question) (branchIndex : Option Nat) : Document :=
  ((branchIndex.bind (questions[·]?)).map (·.id)).getD .null

mutual

/-- A block with all its fields. -/
def Block.toDocument (blockId : Key → Document) : Block → Document
  | ⟨_, id, questions, subBlocks, randomizable, paradigm, branchIndex⟩ =>
    .record [
      ("id", id), ("randomizable", randomizable), ("branch_paradigm", .str paradigm.name),
      ("branch_question", branchQuestionId questions branchIndex),
      ("questions", .list (questions.map (·.toDocument blockId))),
      ("sub_blocks", .list (blockDocuments blockId subBlocks))]

/-- The documents of a list of blocks. -/
def blockDocuments (blockId : Key → Document) : List Block → List Document
  | [] => []
  | b :: bs => b.toDocument blockId :: blockDocuments blockId bs

end

/-- The document of a survey. -/
def Survey.toDocument (s : Survey) : Document :=
  .record [("name", s.name), ("blocks", .list (blockDocuments s.blockId s.blocks)),
    ("metadata", s.metadata)]

/-! ### YAML -/

/-- What an id belongs to. -/
inductive Holder where
  | question (key : Key)
  | block (key : Key)
  deriving DecidableEq, Repr

/-- An id, marked with its holder unless it is a single value. -/
def Holder.sheet (h : Holder) : Document → Yaml.Sheet Holder
  | .list ds => .mark h (.ofDocument (.list ds))
  | .map es => .mark h (.ofDocument (.map es))
  | id => .value id

/-- A question with all its fields; `blockId` names the blocks it leads to. -/
def Question.sheet (blockId : Key → Document) (q : Question) : Yaml.Sheet Holder :=
  .record [
    ("id", (Holder.question q.key).sheet q.id),
    ("text", .ofDocument q.text),
    ("options", .ofDocument (.list (q.choices.map (·.toDocument)))),
    ("exclusive", .ofDocument q.exclusive), ("ordered", .ofDocument q.ordered),
    ("randomize", .ofDocument q.randomize), ("freetext", .ofDocument q.freetext),
    ("custom", .ofDocument q.custom), ("source_row", .ofDocument q.row),
    ("branch_map", .map (q.branches.map fun (c, target) =>
      (c.id, (Holder.block target).sheet (blockId target))))]

/-- The id of the branch question, if there is one. -/
def branchQuestionSheet (questions : List Question) (branchIndex : Option Nat) :
    Yaml.Sheet Holder :=
  match branchIndex.bind (questions[·]?) with
  | some q => (Holder.question q.key).sheet q.id
  | none => .value .null

mutual

/-- A block with all its fields. -/
def Block.sheet (blockId : Key → Document) : Block → Yaml.Sheet Holder
  | ⟨key, id, questions, subBlocks, randomizable, paradigm, branchIndex⟩ =>
    .record [
      ("id", (Holder.block key).sheet id), ("randomizable", .ofDocument randomizable),
      ("branch_paradigm", .value (.str paradigm.name)),
      ("branch_question", branchQuestionSheet questions branchIndex),
      ("questions", .list (questions.map (·.sheet blockId))),
      ("sub_blocks", .list (blockSheets blockId subBlocks))]

/-- The sheets of a list of blocks. -/
def blockSheets (blockId : Key → Document) : List Block → List (Yaml.Sheet Holder)
  | [] => []
  | b :: bs => b.sheet blockId :: blockSheets blockId bs

end

namespace Survey

/-- A survey as it is written into a YAML text. -/
def sheet (s : Survey) : Yaml.Sheet Holder :=
  .record [("name", .ofDocument s.name), ("blocks", .list (blockSheets s.blockId s.blocks)),
    ("metadata", .ofDocument s.metadata)]

/-- A survey as a YAML text. -/
def toYaml (s : Survey) : String := s.sheet.sorted.labelled.text

end Survey

end Questionnaire
