/-
# Surveys

A survey is a list of blocks; a block holds questions and further blocks. A
question offers choices, and some choices may send the respondent to another
block. Questions and blocks are nodes: two nodes with the same id are still
two, so each carries a key. Choices have no identity of their own and are
compared by value.

Ids, texts, rows and the like are kept as the survey's document gives them: an
id is a text most of the time, but it may be a number or a day.

Key definitions: `Choice`, `Question`, `Block`, `Survey`.
-/
import Questionnaire.Document

namespace Questionnaire

/-- What tells nodes apart: the survey a node comes from, and its place there.
Nodes of no survey have an origin of their own. -/
structure Key where
  origin : Nat
  index : Nat
  deriving DecidableEq, Repr, Inhabited, Hashable

/-- One of the answers a question offers. Its row is where the source document
has it: wording variants of a question line up by the distance between the
rows of a choice and of its question. -/
structure Choice where
  id : Document
  text : Document := .str ""
  row : Document := .int 0
  deriving Repr, BEq, Inhabited

/-- A question. A choice that `branches` lists sends the respondent to the
block with the key; any other choice leads on to the next block. -/
structure Question where
  key : Key
  id : Document
  text : Document := .str ""
  choices : List Choice := []
  /-- Only one choice may be selected. -/
  exclusive : Document := .bool true
  /-- The order of the choices has a meaning, so a display may only reverse it. -/
  ordered : Document := .bool false
  /-- The display order of the choices may be random. -/
  randomize : Document := .bool true
  /-- The answer is a text; there is nothing to choose. -/
  freetext : Document := .bool false
  /-- The question serves the deployment and takes no part in the statistics. -/
  custom : Document := .bool false
  row : Document := .int 0
  branches : List (Choice × Key) := []
  deriving Repr, Inhabited

/-- Questions are told apart by their keys. -/
instance : BEq Question := ⟨fun q r => q.key == r.key⟩

/-- How a block relates to branching: not at all, through a branch question,
or as a group of wording variants of which each respondent sees one. -/
inductive Paradigm where
  | none
  | one
  | all
  deriving DecidableEq, Repr, Inhabited

/-- A block of questions and further blocks. A block that is not randomizable
keeps its place among its siblings. -/
structure Block where
  key : Key
  id : Document
  questions : List Question := []
  subBlocks : List Block := []
  randomizable : Document := .bool false
  paradigm : Paradigm := .none
  /-- The place of the branch question among the block's own questions. -/
  branchIndex : Option Nat := Option.none
  deriving Repr, Inhabited

/-- A survey: its blocks at the top level, a name, and data that nothing here reads. -/
structure Survey where
  name : Document
  blocks : List Block := []
  metadata : Document := .map []
  deriving Repr, Inhabited

namespace Choice

/-- Whether the choice may be looked up by value. -/
def isKey (c : Choice) : Bool := c.id.isKey && c.text.isKey && c.row.isKey

end Choice

namespace Question

/-- Whether only one choice may be selected. -/
def isExclusive (q : Question) : Bool := q.exclusive.isGiven

/-- Whether the order of the choices has a meaning. -/
def isOrdered (q : Question) : Bool := q.ordered.isGiven

/-- Whether the display order of the choices may be random. -/
def isRandomized (q : Question) : Bool := q.randomize.isGiven

/-- Whether the answer is a text. -/
def isFreetext (q : Question) : Bool := q.freetext.isGiven

/-- Whether the question takes no part in the statistics. -/
def isCustom (q : Question) : Bool := q.custom.isGiven

/-- The block that a choice sends the respondent to. -/
def destination? (q : Question) (c : Choice) : Option Key := q.branches.lookup c

/-- Whether some choice sends the respondent elsewhere. -/
def isBranch (q : Question) : Bool := !q.branches.isEmpty

/-- The first choice with the id. -/
def choice? (q : Question) (id : Document) : Option Choice := q.choices.find? (·.id.equals id)

/-- The place of a choice in source order, counted from one. -/
def rank? (q : Question) (c : Choice) : Option Nat := (q.choices.idxOf? c).map (· + 1)

end Question

namespace Paradigm

/-- The name of a paradigm in documents. -/
def name : Paradigm → String
  | .none => "none"
  | .one => "one"
  | .all => "all"

/-- The paradigm with the name. -/
def ofName? : String → Option Paradigm
  | "none" => some .none
  | "one" => some .one
  | "all" => some .all
  | _ => Option.none

@[simp] theorem ofName?_name (p : Paradigm) : ofName? p.name = some p := by cases p <;> rfl

end Paradigm

namespace Block

/-- The question whose answer routes the respondent, if the block has one. -/
def branchQuestion? (b : Block) : Option Question := b.branchIndex.bind (b.questions[·]?)

/-- Whether the block may be moved among its siblings. -/
def isRandomizable (b : Block) : Bool := b.randomizable.isGiven

/-- How many questions and blocks the block holds itself. -/
def contentsSize (b : Block) : Nat := b.questions.length + b.subBlocks.length

/-- Whether the question is one of the block's own. -/
def holds (b : Block) (q : Question) : Bool := b.questions.any (·.key == q.key)

mutual

/-- The block and all blocks under it, each before those under it. -/
def preorder : Block → List Block
  | ⟨key, id, questions, subBlocks, randomizable, paradigm, branchIndex⟩ =>
    ⟨key, id, questions, subBlocks, randomizable, paradigm, branchIndex⟩ :: preorders subBlocks

/-- The blocks of a list with all blocks under them, in order. -/
def preorders : List Block → List Block
  | [] => []
  | b :: bs => b.preorder ++ preorders bs

end

theorem sizeOf_subBlock {b c : Block} (h : c ∈ b.subBlocks) : sizeOf c < sizeOf b := by
  have := List.sizeOf_lt_of_mem h
  cases b
  simp only [Block.mk.sizeOf_spec] at *
  omega

theorem preorder_eq (b : Block) : b.preorder = b :: preorders b.subBlocks := by
  cases b; rw [preorder]

theorem preorders_eq_flatMap (bs : List Block) : preorders bs = bs.flatMap preorder := by
  induction bs with
  | nil => rfl
  | cons b bs ih => simp [preorders, ih]

end Block

namespace Survey

/-- All blocks, depth first. -/
def allBlocks (s : Survey) : List Block := Block.preorders s.blocks

/-- All questions, depth first: a block's own before those of the blocks under it. -/
def questions (s : Survey) : List Question := s.allBlocks.flatMap (·.questions)

/-- The blocks at the top level that may move, and those that keep their place. -/
def shuffledBlocks (s : Survey) : List Block := s.blocks.filter (·.isRandomizable)

@[inherit_doc shuffledBlocks]
def fixedBlocks (s : Survey) : List Block := s.blocks.filter (!·.isRandomizable)

end Survey

end Questionnaire
