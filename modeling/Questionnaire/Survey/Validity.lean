/-
# What a survey must satisfy

A survey has blocks, every block has contents, a block of variants has
questions, a question for a text offers no choices, and a branch leads from a
fixed block at the top level to a later fixed one. `Survey.faults` lists the
violations in the order of the blocks, `Survey.check` reports the first.
-/
import Questionnaire.Survey.Index
import Questionnaire.Survey.Order

namespace Questionnaire

namespace Survey

/-- What is wrong with a branch of `q` to the block with the key `target`. -/
def branchFaults (s : Survey) (q : Question) (target : Key) : List Fault :=
  match s.blocks.find? (·.key == target) with
  | none =>
    let id := s.blockId target
    [.citing [q.id, id] (.branchBelowTop q.id.display id.display)]
  | some dest =>
    if dest.isRandomizable then
      [.citing [q.id, dest.id] (.branchToShuffled q.id.display dest.id.display)]
    else match s.farthest q with
      | .error fault => [fault]
      | .ok origin =>
        if origin.isRandomizable then
          [.citing [q.id, origin.id] (.branchFromShuffled q.id.display origin.id.display)]
        else match dest.sortKey, origin.sortKey with
          | .ok later, .ok earlier =>
            if later.le earlier then
              [.citing [q.id, origin.id, dest.id]
                (.branchBackwards q.id.display origin.id.display dest.id.display)]
            else []
          | .error fault, _ | .ok _, .error fault => [fault]

/-- What is wrong with a question. -/
def questionFaults (s : Survey) (q : Question) : List Fault :=
  (if q.isFreetext && !q.choices.isEmpty then
      [.about [q.id] (.freetextWithOptions q.id.display)] else []) ++
    q.branches.flatMap fun (_, target) => s.branchFaults q target

/-- What is wrong with a block itself and with its own questions. -/
def blockFaults (s : Survey) (b : Block) : List Fault :=
  (if b.contentsSize == 0 then
      [.about [b.id, s.name] (.emptyBlock b.id.display s.name.display)] else []) ++
    (if b.paradigm = .all ∧ b.questions.isEmpty then
      [.about [b.id] (.variantsWithoutQuestions b.id.display)] else []) ++
    b.questions.flatMap s.questionFaults

/-- All that is wrong with a survey, in the order of the blocks. -/
def faults (s : Survey) : List Fault :=
  (if s.blocks.isEmpty then
      [.about [s.name] (.noTopLevelBlocks s.name.display)] else []) ++
    s.allBlocks.flatMap s.blockFaults

/-- The first thing that is wrong with a survey. -/
def check (s : Survey) : Except Fault Unit :=
  match s.faults with
  | [] => .ok ()
  | fault :: _ => .error fault

/-- A survey is valid if nothing is wrong with it. -/
def Valid (s : Survey) : Prop := s.faults = []

instance (s : Survey) : Decidable s.Valid := inferInstanceAs (Decidable (s.faults = []))

theorem check_eq_ok_iff (s : Survey) : s.check = .ok () ↔ s.Valid := by
  unfold check Valid
  split <;> simp_all

end Survey

end Questionnaire
