/-
# Walking one respondent through a survey

A traversal keeps two queues: the questions of the block that is being asked,
and the blocks still to come. When the questions run out the next block is
opened. An answer to a branching question names the block to go on with;
until that block is reached the fixed blocks in front of it are passed over,
while the blocks that may move are shown to everyone.

Key definitions: `Traversal.start`, `Traversal.next`, `Traversal.answer`,
`Traversal.finish`.
-/
import Questionnaire.Traversal.Expansion
import Questionnaire.Survey.Validity

namespace Questionnaire

/-- A question as it was shown: its choices in display order, and how many
questions were shown before it. -/
structure Shown where
  question : Question
  options : List Selection
  seen : Nat
  deriving Repr, Inhabited

namespace Shown

/-- The place at which a choice was shown; of equal choices, the last one's. -/
def place? (s : Shown) (c : Choice) : Option Document :=
  (s.options.reverse.find? (·.choice == c)).map (·.index)

/-- The selection of a choice, which must be one that was shown. -/
def selectOne (s : Shown) (c : Choice) : Except Fault Selection :=
  if !c.isKey then .error .illTyped
  else match s.place? c with
    | some index => .ok ⟨c, index⟩
    | none =>
      .error (.about [c.id, s.question.id] (.foreignOption c.id.display s.question.id.display))

/-- The selections of the given choices, in their order. All that was shown must be fit to be
looked up. -/
def select (s : Shown) (choices : List Choice) : Except Fault (List Selection) :=
  if s.options.all (·.choice.isKey) then choices.mapM s.selectOne else .error .illTyped

end Shown

/-- How far one respondent has come. -/
structure Traversal where
  survey : Survey
  gen : Gen
  /-- The blocks still to come. -/
  blocks : List Block
  /-- The questions still to come in the block that is being asked. -/
  questions : List Question
  /-- The block that the last branching answer leads to. -/
  pending : Option Key
  /-- The questions shown so far. -/
  shown : List Shown
  /-- The answers given so far. -/
  answers : List Answer
  /-- The blocks opened so far. -/
  visited : List Block
  deriving Inhabited

namespace Traversal

/-- Whether nothing is left to ask. -/
def finished (t : Traversal) : Bool := t.questions.isEmpty && t.blocks.isEmpty

/-- A respondent at the beginning: the blocks are arranged and the first is open. -/
def start (s : Survey) : Trial Traversal := fun g => do
  s.check
  let (blocks, g) ← s.arrangeBlocks g
  match blocks with
  | [] => .error (.about [s.name] (.noTopLevelBlocks s.name.display))
  | first :: rest =>
    let (questions, g) ← first.expand g
    let t : Traversal := {
      survey := s, gen := g, blocks := rest, questions, pending := none, shown := []
      answers := [], visited := [first] }
    return (t, g)

/-- The fault of having nothing left to ask before the end. -/
def stuck (t : Traversal) : Fault :=
  let target := t.pending.map t.survey.blockId
  .citing target.toList (.nothingReachable (target.map (·.display)))

/-- Opens the first of the blocks that is not passed over. The traversal that
comes with a failure has no blocks in front of the one that failed. -/
def refill (t : Traversal) : List Block → Except Fault Unit × Traversal
  | [] => (.error t.stuck, { t with blocks := [] })
  | b :: rest =>
    if b.isRandomizable || t.pending.all (· == b.key) then
      match b.expand t.gen with
      | .error fault => (.error fault, { t with blocks := rest })
      | .ok ([], gen) =>
        (.error (.about [t.survey.name, b.id]
            (.noQuestionsIn b.id.display t.survey.name.display)),
          { t with blocks := rest, gen })
      | .ok (questions, gen) =>
        (.ok (), { t with
          blocks := rest, questions, gen, visited := t.visited ++ [b]
          pending := if b.isRandomizable then t.pending else none })
    else refill t rest

/-- Shows a question. -/
def present (t : Traversal) (q : Question) : Shown × Traversal :=
  let (options, gen) := q.present t.gen
  let shown : Shown := ⟨q, options, t.shown.length⟩
  (shown, { t with gen, shown := t.shown ++ [shown] })

/-- Takes the first of the open questions and shows it. -/
def take (t : Traversal) : Except Fault Shown × Traversal :=
  match t.questions with
  | [] => (.error t.stuck, t)
  | q :: questions =>
    let (shown, t) := present { t with questions } q
    (.ok shown, t)

/-- The next question, from the block that is being asked or from the next one. -/
def next (t : Traversal) : Except Fault Shown × Traversal :=
  if t.finished then (.error .finished, t)
  else if t.questions.isEmpty then
    match t.refill t.blocks with
    | (.error fault, t) => (.error fault, t)
    | (.ok (), t) => t.take
  else t.take

/-- Records an answer. A question can be answered once, after it was shown, and
with choices of its own; an answer at fault changes nothing. -/
def answer (t : Traversal) (q : Question) (choices : List Choice) : Except Fault Traversal :=
  match t.shown.find? (·.question.key == q.key) with
  | none => .error (.about [q.id] (.neverPresented q.id.display))
  | some shown =>
    if t.answers.any (·.question.key == q.key) then
      .error (.about [q.id] (.answeredTwice q.id.display))
    else do
      let selections ← shown.select choices
      return { t with
        answers := t.answers ++ [⟨q, selections, .int t.answers.length⟩]
        pending := match choices with
          | [] => t.pending
          | c :: _ => if q.isBranch then q.destination? c else t.pending }

/-- The response that the answers so far make up. -/
def response (t : Traversal) (id : Document) : Response := { id, answers := t.answers }

/-! ### Going on to the end

A question that was taken is gone from the queue and a block that was opened or
passed over is gone from the other one, so a traversal ends. -/

theorem refill_blocks_length (t : Traversal) (blocks : List Block) :
    (t.refill blocks).2.blocks.length ≤ blocks.length - 1 := by
  induction blocks with
  | nil => simp [refill]
  | cons b rest ih =>
    unfold refill
    split
    · split <;> simp
    · have : rest.length - 1 ≤ (b :: rest).length - 1 := by simp only [List.length_cons]; omega
      exact Nat.le_trans ih this

theorem take_blocks (t : Traversal) : t.take.2.blocks = t.blocks := by
  unfold take; split <;> rfl

theorem take_questions (t : Traversal) (h : t.questions ≠ []) :
    t.take.2.questions.length < t.questions.length := by
  unfold take
  split
  · contradiction
  · rename_i hq; simp [present, hq]

/-- How much is left: the blocks to come, then the open questions. -/
def left (t : Traversal) : Nat × Nat := (t.blocks.length, t.questions.length)

theorem next_left {t t' : Traversal} {shown : Shown} (h : t.next = (.ok shown, t')) :
    Prod.Lex (· < ·) (· < ·) t'.left t.left := by
  unfold next at h
  split at h
  · simp at h
  · rename_i hf
    split at h
    · rename_i hq
      split at h
      · simp at h
      · rename_i u hu
        have hle := refill_blocks_length t t.blocks
        rw [hu] at hle
        have hb : t'.blocks = u.blocks := by rw [← take_blocks u, h]
        have hne : t.blocks ≠ [] := by
          intro he
          simp [finished, he] at hf
          simp [List.isEmpty_iff] at hq
          exact hf hq
        have hpos : 0 < t.blocks.length := List.length_pos_iff.2 hne
        refine Prod.Lex.left _ _ ?_
        simp only [hb]
        simp only at hle
        omega
    · rename_i hq
      have hne : t.questions ≠ [] := by simpa [List.isEmpty_iff] using hq
      have hb := take_blocks t
      have hl := take_questions t hne
      rw [h] at hb hl
      unfold left
      rw [show t'.blocks = t.blocks from hb]
      exact Prod.Lex.right _ hl

theorem answer_left {t t' : Traversal} {q : Question} {choices : List Choice}
    (h : t.answer q choices = .ok t') : t'.left = t.left := by
  unfold answer at h
  split at h
  · simp at h
  · split at h
    · simp at h
    · rename_i shown _ _
      cases hs : shown.select choices with
      | error f => simp [hs, bind, Except.bind] at h
      | ok selections =>
        simp only [hs, bind, Except.bind, pure, Except.pure, Except.ok.injEq] at h
        rw [← h]; rfl

/-- Goes on to the end, answering each question with what `choose` makes of it.
The traversal that comes with a failure is the one that failed. -/
def finish (choose : Shown → Trial (List Choice)) (t : Traversal) : Except Fault Unit × Traversal :=
  if t.finished then (.ok (), t)
  else
    match _hn : t.next with
    | (.error fault, t) => (.error fault, t)
    | (.ok shown, u) =>
      match choose shown u.gen with
      | .error fault => (.error fault, u)
      | .ok (choices, gen) =>
        match _ha : { u with gen }.answer shown.question choices with
        | .error fault => (.error fault, { u with gen })
        | .ok t => finish choose t
termination_by t.left
decreasing_by
  have h := answer_left ‹_›
  simp only [left] at h ⊢
  rw [h]
  exact next_left ‹_›

end Traversal

end Questionnaire
