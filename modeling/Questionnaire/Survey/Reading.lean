/-
# Reading surveys

A survey is read from its document in two steps. First the tree of blocks is
read, its questions and blocks are numbered in depth-first order and the branch
maps are put aside as they stand. Then each branch is resolved: its choice is
the first one of the question with the id, its block the first one of the survey
with the other id. Fields that are left out have their usual values; ids are
required. A block that is under itself has no end and cannot be read.

Key definitions: `Block.readIn`, `BranchMap.resolve`, `Survey.ofDocument`.
-/
import Questionnaire.Document.Access
import Questionnaire.Document.Display
import Questionnaire.Survey.Basic

namespace Questionnaire

/-- Reads a choice; only its id is required. -/
def Choice.ofDocument (d : Document) : Except Fault Choice := do
  let id ← d.required "id"
  return { id, text := d.fieldD "text" (.str ""), row := d.fieldD "source_row" (.int 0) }

/-- Reads a question without its branches; only its id is required. -/
def Question.ofDocument (key : Key) (d : Document) : Except Fault Question := do
  let id ← d.required "id"
  let choices ← (← (d.fieldD "options" (.list [])).elements).mapM Choice.ofDocument
  return {
    key, id, choices
    text := d.fieldD "text" (.str "")
    exclusive := d.fieldD "exclusive" (.bool true)
    ordered := d.fieldD "ordered" (.bool false)
    randomize := d.fieldD "randomize" (.bool true)
    freetext := d.fieldD "freetext" (.bool false)
    custom := d.fieldD "custom" (.bool false)
    row := d.fieldD "source_row" (.int 0) }

/-- A branch map as its document gives it, with the question it belongs to. -/
structure BranchMap where
  question : Question
  entries : Document
  deriving Repr, Inhabited

/-- What was read: how many blocks and questions, and the branch maps. -/
structure ReadSoFar where
  blocks : Nat := 0
  questions : Nat := 0
  maps : List BranchMap := []
  deriving Repr, Inhabited

/-- A reader of parts of a survey. -/
abbrev Reads (α : Type) := StateT ReadSoFar (Except Fault) α

/-- Reads the next question. A branch map that is empty in some way counts as none. -/
def Question.readIn (origin : Nat) (d : Document) : Reads Question := do
  let q ← Question.ofDocument ⟨origin, (← get).questions⟩ d
  let entries := d.fieldD "branch_map" .null
  let maps := if entries.isGiven then [⟨q, entries⟩] else []
  modify fun r => { r with questions := r.questions + 1, maps := r.maps ++ maps }
  return q

namespace Block

/-- The place of the question that a block names as its branch question. -/
def readBranchIndex (d : Document) (questions : List Question) : Except Fault (Option Nat) :=
  match d.fieldD "branch_question" .null with
  | .null => .ok none
  | named =>
    match questions.findIdx? (·.id.equals named) with
    | some i => .ok (some i)
    | none => do
      let id ← d.required "id"
      .error (.citing [id, named] (.unknownBranchQuestion id.display named.display))

/-- Reads the name of a paradigm. -/
def readParadigm (d : Document) : Except Fault Paradigm :=
  match d with
  | .str name =>
    match Paradigm.ofName? name with
    | some p => .ok p
    | none => .error .unknownParadigm
  | _ => .error .unknownParadigm

/-- What lists blocks but is no list: it is empty or at fault, as nothing else has mappings as
items. -/
def readNoBlocks (d : Document) : Except Fault (List Block) := do
  let things ← d.elements
  if things.isEmpty then return [] else throw .notAMapping

/-- Reads the next block: its questions, its branch question, its id, the blocks under it and
its paradigm, in this order, so the first fault in this order is the one reported. On the way
down no node of a knot is met twice, so `fuel` is their number. -/
def readIn (origin : Nat) (fuel : Nat) (d : Document) : Reads Block :=
  match d with
  | .knot nodes place =>
    match fuel with
    | 0 => throw .endless
    | fuel + 1 => readIn origin fuel (Document.knot nodes place).opened
  | .map entries => do
    let d := Document.map entries
    let key : Key := ⟨origin, (← get).blocks⟩
    modify fun r => { r with blocks := r.blocks + 1 }
    let questions ← (← (d.fieldD "questions" (.list [])).elements).mapM (Question.readIn origin)
    let branchIndex ← readBranchIndex d questions
    let id ← d.required "id"
    let subBlocks ←
      match _hd : Document.lookup (.str "sub_blocks") entries with
      | none => pure []
      | some (.list items) => items.attach.mapM fun ⟨item, _⟩ => readIn origin fuel item
      | some (.knot nodes place) =>
        match fuel, (Document.knot nodes place).opened with
        | 0, _ => throw .endless
        | fuel + 1, .list items => items.mapM (readIn origin fuel)
        | _, other => readNoBlocks other
      | some other => readNoBlocks other
    let paradigm ← readParadigm (d.fieldD "branch_paradigm" (.str "none"))
    return {
      key, id, questions, subBlocks, paradigm, branchIndex
      randomizable := d.fieldD "randomizable" (.bool false) }
  | _ => throw .notAMapping
termination_by (fuel, sizeOf d)
decreasing_by
  · exact Prod.Lex.left _ _ (Nat.lt_succ_self _)
  · exact Prod.Lex.right _ (Document.sizeOf_item ‹_› ‹_›)
  · exact Prod.Lex.left _ _ (Nat.lt_succ_self _)

/-- The block that a document describes, without the branches in and under it. -/
def ofDocument (d : Document) : Except Fault Block := (readIn 0 d.nodeCount d).run' {}

end Block

/-- Reads the blocks of a survey. -/
def readBlocks (origin : Nat) (d : Document) : Reads (List Block) :=
  match (d.fieldD "blocks" (.list [])).opened with
  | .list items => items.mapM fun item => Block.readIn origin item.nodeCount item
  | other => Block.readNoBlocks other

/-! ### Branches -/

namespace BranchMap

/-- One branch: the first choice with the id, and the first block with the other id. -/
def resolveEntry (blocks : List Block) (q : Question) (choiceId blockId : Document) :
    Except Fault (Choice × Key) :=
  match q.choice? choiceId with
  | none => .error (.about [q.id, choiceId] (.unknownBranchOption q.id.display choiceId.display))
  | some c =>
    match blocks.find? (·.id.equals blockId) with
    | none => .error (.about [q.id, blockId] (.unknownBranchBlock q.id.display blockId.display))
    | some b => if c.isKey then .ok (c, b.key) else .error .illTyped

/-- The branches that a branch map gives, in a survey with the blocks. -/
def resolve (blocks : List Block) (m : BranchMap) : Except Fault (List (Choice × Key)) := do
  let entries ← m.entries.mapping
  entries.mapM fun (choiceId, blockId) => resolveEntry blocks m.question choiceId blockId

end BranchMap

/-- The question with its branches, by its key. -/
def Question.withBranches (found : List (Key × List (Choice × Key))) (q : Question) : Question :=
  { q with branches := (found.lookup q.key).getD [] }

mutual

/-- The block with the branches of the questions in and under it. -/
def Block.withBranches (found : List (Key × List (Choice × Key))) : Block → Block
  | ⟨key, id, questions, subBlocks, randomizable, paradigm, branchIndex⟩ =>
    ⟨key, id, questions.map (·.withBranches found), blocksWithBranches found subBlocks,
      randomizable, paradigm, branchIndex⟩

/-- The blocks of a list with the branches of the questions in and under them. -/
def blocksWithBranches (found : List (Key × List (Choice × Key))) : List Block → List Block
  | [] => []
  | b :: bs => b.withBranches found :: blocksWithBranches found bs

end

namespace Survey

/-- The survey that a document describes. Its nodes have the given origin. -/
def ofDocument (origin : Nat) (d : Document) : Except Fault Survey := do
  let _ ← d.mapping
  let (blocks, read) ← (readBlocks origin d).run {}
  let allBlocks := Block.preorders blocks
  let found ← read.maps.mapM fun m => do return (m.question.key, ← m.resolve allBlocks)
  return {
    name := d.fieldD "name" (.str "")
    blocks := blocksWithBranches found blocks
    metadata := d.fieldD "metadata" (.map []) }

end Survey

end Questionnaire
