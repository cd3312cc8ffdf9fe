/-
# The directory of a survey

A survey keeps a directory of its nodes: all blocks and questions, the block
that holds a question and the block that a block is under. It is filled with the
help of a stack. The block on top is entered with its questions, and the blocks
under it are put on the stack, the last one first, so that the first is next.
From the block that holds a question one climbs to the top level, from each
block to the one it is under.

Key definitions: `Directory.turn`, `Directory.fill`, `Directory.climb`,
`Survey.directory`.
-/
import Questionnaire.Survey.Index

namespace Questionnaire

/-- What a survey keeps of its nodes. Of two entries for a key the later one counts; it stands
first. -/
structure Directory where
  blocks : List Block := []
  questions : List Question := []
  /-- The block that holds the question with the key. -/
  holders : List (Key × Block) := []
  /-- The block that the one with the key is under. -/
  parents : List (Key × Block) := []
  deriving Repr, Inhabited

namespace Directory

/-- Enters a question that the block holds. -/
def enter (b : Block) (dir : Directory) (q : Question) : Directory :=
  { dir with questions := dir.questions ++ [q], holders := (q.key, b) :: dir.holders }

/-- Enters that a block is under `b`, and puts it on the stack. -/
def push (b : Block) (waiting : List Block × Directory) (c : Block) : List Block × Directory :=
  (c :: waiting.1, { waiting.2 with parents := (c.key, b) :: waiting.2.parents })

/-- Enters a block that was taken from the stack, and puts the blocks under it there. -/
def turn (b : Block) (stack : List Block) (dir : Directory) : List Block × Directory :=
  let dir := b.questions.foldl (enter b) { dir with blocks := dir.blocks ++ [b] }
  b.subBlocks.reverse.foldl (push b) (stack, dir)

theorem foldl_enter (b : Block) : ∀ (qs : List Question) (dir : Directory),
    qs.foldl (enter b) dir = { dir with
      questions := dir.questions ++ qs
      holders := (qs.map fun q => (q.key, b)).reverse ++ dir.holders }
  | [], dir => by simp
  | q :: qs, dir => by
    rw [List.foldl_cons, foldl_enter b qs]
    simp [enter]

theorem foldr_push (b : Block) (stack : List Block) (dir : Directory) : ∀ cs : List Block,
    cs.foldr (fun c waiting => push b waiting c) (stack, dir) =
      (cs ++ stack, { dir with parents := cs.map (fun c => (c.key, b)) ++ dir.parents })
  | [] => rfl
  | c :: cs => by
    rw [List.foldr_cons, foldr_push b stack dir cs]
    rfl

/-- What a turn enters, and what is on the stack after it. -/
theorem turn_eq (b : Block) (stack : List Block) (dir : Directory) :
    turn b stack dir = (b.subBlocks ++ stack, {
      blocks := dir.blocks ++ [b]
      questions := dir.questions ++ b.questions
      holders := (b.questions.map fun q => (q.key, b)).reverse ++ dir.holders
      parents := b.subBlocks.map (fun c => (c.key, b)) ++ dir.parents }) := by
  unfold turn
  rw [List.foldl_reverse, foldr_push, foldl_enter]

/-- Enters the blocks on the stack and all under them. -/
def fill : List Block → Directory → Directory
  | [], dir => dir
  | b :: stack, dir => fill (turn b stack dir).1 (turn b stack dir).2
termination_by stack => (Block.preorders stack).length
decreasing_by
  simp only [turn_eq, Block.preorders, Block.preorder_eq, Block.preorders_eq_flatMap,
    List.flatMap_append, List.length_append, List.length_cons]
  omega

/-- The block that a block is under; none at the top level. -/
def parent? (dir : Directory) (b : Block) : Option Block := dir.parents.lookup b.key

/-- The block that one gets to with at most so many steps to the block above. -/
def climb (dir : Directory) : Nat → Block → Block
  | 0, b => b
  | n + 1, b =>
    match dir.parent? b with
    | none => b
    | some above => dir.climb n above

/-- The block that holds the question, in the survey with the name. -/
def containing (dir : Directory) (survey : Document) (q : Question) : Except Fault Block :=
  match dir.holders.lookup q.key with
  | some b => .ok b
  | none => .error (q.strangerTo survey)

/-- The block that one gets to from the one that holds the question. No way up has more steps than
there are blocks. -/
def farthest (dir : Directory) (survey : Document) (q : Question) : Except Fault Block :=
  (dir.containing survey q).map (dir.climb dir.blocks.length)

end Directory

/-- The directory of the survey. -/
def Survey.directory (s : Survey) : Directory := .fill s.blocks {}

end Questionnaire
