/-
# Surveys without blocks under blocks

A block of a document that lists no blocks under it is read field by field, so
the blocks of a document without nesting are read one after another.

`Survey.fork` is one of them: its first question sends some respondents past the
second block, whatever that asks.

Key definitions: `Block.readLeaf`, `Survey.fork`.
Key theorem: `readBlocks_leaves`.
-/
import Mathlib
import Questionnaire.Response.Basic
import Questionnaire.Survey.Reading
import Questionnaire.Survey.Validity

namespace Questionnaire

/-- Reads the next block, which has no blocks under it. -/
def Block.readLeaf (origin : Nat) (entries : List (Document × Document)) : Reads Block := do
  let d := Document.map entries
  let key : Key := ⟨origin, (← get).blocks⟩
  modify fun r => { r with blocks := r.blocks + 1 }
  let questions ← (← (d.fieldD "questions" (.list [])).elements).mapM (Question.readIn origin)
  let branchIndex ← readBranchIndex d questions
  let id ← d.required "id"
  let paradigm ← readParadigm (d.fieldD "branch_paradigm" (.str "none"))
  return {
    key, id, questions, paradigm, branchIndex
    randomizable := d.fieldD "randomizable" (.bool false) }

theorem Block.readIn_leaf {origin fuel : Nat} {entries : List (Document × Document)}
    (h : Document.lookup (.str "sub_blocks") entries = none) :
    readIn origin fuel (.map entries) = readLeaf origin entries := by
  rw [readIn, readLeaf]
  iterate 6 refine bind_congr fun _ => ?_
  split
  · rfl
  all_goals
    rename_i hfound
    rw [h] at hfound
    cases hfound

/-- Blocks that list no blocks are read one after another. -/
theorem readBlocks_leaves {origin : Nat} {d : Document}
    {leaves : List (List (Document × Document))}
    (h : (d.fieldD "blocks" (.list [])).opened = .list (leaves.map .map))
    (hleaves : leaves.all (fun e => (Document.lookup (.str "sub_blocks") e).isNone) = true) :
    readBlocks origin d = leaves.mapM (Block.readLeaf origin) := by
  unfold readBlocks
  rw [h]
  clear h
  simp only [List.mapM_map]
  induction leaves with
  | nil => rfl
  | cons entries leaves ih =>
    simp only [List.all_cons, Bool.and_eq_true, Option.isNone_iff_eq_none] at hleaves
    rw [List.mapM_cons, List.mapM_cons, ih hleaves.2, Function.comp_apply,
      Block.readIn_leaf hleaves.1]

/-! ### A fork -/

/-- A choice of a sample document; its text is its id. -/
def choiceEntry (id : String) : Document := .record [("id", .str id), ("text", .str id)]

/-- A block of a sample document, with one question. -/
def blockEntry (id : String) (question : List (String × Document)) : Document :=
  .record [("id", .str id), ("questions", .list [.record (("id", .str ("q" ++ id)) :: question)])]

/-- A document whose first question sends those who choose `short` to the last block, past the
question with the given fields. -/
def forkDocument (more : List (String × Document)) : Document := .record [
  ("name", .str "fork"),
  ("blocks", .list [
    blockEntry "1" [("options", .list [choiceEntry "long", choiceEntry "short"]),
      ("branch_map", .record [("short", .str "3")])],
    blockEntry "2" more,
    blockEntry "3" [("options", .list [choiceEntry "last"])]])]

/-- A choice whose text is its id. -/
def plainChoice (id : String) : Choice := { id := .str id, text := .str id }

/-- The question with the number. -/
def plainQuestion (index : Nat) (id : String) (choices : List Choice)
    (branches : List (Choice × Key)) : Question :=
  { key := ⟨0, index⟩, id := .str ("q" ++ id), choices, branches }

/-- The block with the number and its question. -/
def plainBlock (index : Nat) (id : String) (question : Question) : Block :=
  { key := ⟨0, index⟩, id := .str id, questions := [question] }

/-- The response that selects the choices for the questions, in their order. -/
def plainResponse (id : String) (selected : List (Question × List String)) : Response where
  id := .str id
  answers := selected.map fun (q, choices) =>
    ⟨q, choices.map fun choice => ⟨plainChoice choice, .int 0⟩, .int 0⟩

namespace Survey

/-- The question at the fork. -/
def forkFirst : Question :=
  plainQuestion 0 "1" [plainChoice "long", plainChoice "short"] [(plainChoice "short", ⟨0, 2⟩)]

/-- The question that all come to. -/
def forkLast : Question := plainQuestion 2 "3" [plainChoice "last"] []

/-- The survey with a fork around the question. -/
def fork (more : Question) : Survey where
  name := .str "fork"
  blocks := [plainBlock 0 "1" forkFirst, plainBlock 1 "2" more, plainBlock 2 "3" forkLast]

/-- The fields of a plain question. -/
def moreFields : List (String × Document) := [("options", .list [choiceEntry "more"])]

/-- The plain question with these fields. -/
def more : Question := plainQuestion 1 "2" [plainChoice "more"] []

theorem ofDocument_fork : ofDocument 0 (forkDocument moreFields) = .ok (fork more) := by
  unfold ofDocument
  rw [@readBlocks_leaves 0 (forkDocument moreFields) [_, _, _] (by cbv) (by cbv)]
  cbv

theorem fork_valid : (fork more).Valid := by decide

theorem questions_fork (q : Question) : (fork q).questions = [forkFirst, q, forkLast] := rfl

end Survey

end Questionnaire
