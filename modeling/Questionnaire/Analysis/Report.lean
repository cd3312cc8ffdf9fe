/-
# The report on a survey

An inventory, the paths with their lengths, the bits the answers can carry, and
warnings about questions and blocks that serve no purpose.
-/
import Questionnaire.Analysis.Length
import Questionnaire.Analysis.Entropy

namespace Questionnaire

/-- What there is to say about a survey. -/
structure Report where
  name : Document
  blocks : Nat
  topBlocks : Nat
  questions : Nat
  movingBlocks : Nat
  variantBlocks : Nat
  branchQuestions : Nat
  paths : Nat
  shortest : Nat
  longest : Nat
  average : Float
  /-- The ids of the fixed blocks at the top level that are on no path, sorted. -/
  unreachable : List Document
  maxEntropy : Float
  /-- The ids of the questions with a single choice. -/
  singleChoice : List Document
  /-- The ids of the questions with nothing to choose. -/
  noChoice : List Document
  warnings : List Document
  deriving Repr, Inhabited

namespace Report

/-- The report with a warning; none is given twice. -/
def warn (r : Report) (warning : Document) : Report :=
  if r.warnings.contains warning then r else { r with warnings := r.warnings ++ [warning] }

/-- The report with a warning that lists ids, if there are any. They have to be texts. -/
def warnAbout (r : Report) (text : String) (ids : List Document) : Except Fault Report := do
  if ids.isEmpty then return r
  else return r.warn (.str (text ++ ", ".intercalate (← ids.mapM (·.text))))

/-- The report with all warnings. -/
def withWarnings (r : Report) : Except Fault Report := do
  let r ← r.warnAbout "Unreachable blocks: " r.unreachable
  let r ← r.warnAbout "Questions with a single option: " r.singleChoice
  let r ← r.warnAbout "Questions without options: " r.noChoice
  return if r.maxEntropy == 0.0 then
    r.warn (.str "Survey carries no information: every path has zero entropy")
  else r

end Report

namespace Survey

/-- The ids of the fixed blocks at the top level that are on no path, each once and sorted. -/
def unreachableIds (s : Survey) (paths : List Path) : Except Fault (List Document) :=
  let lost := s.fixedBlocks.filter fun b => !paths.any (Path.has · b)
  Document.sorted (lost.map (·.id)).eraseDups

/-- The ids of the measured questions with a given number of choices. -/
def idsWithChoices (s : Survey) (n : Nat) : List Document :=
  (s.measured.filter (·.choices.length == n)).map (·.id)

/-- Examines a survey; the average length is over `samples` respondents. -/
def examine (s : Survey) (samples : Document) (g : Gen) : Noting Report := do
  let paths ← s.paths
  makeNotes s.pathNotes
  let (tours, g) ← Gen.tryEach tour paths g
  let lengths : List Nat := tours.map (·.length)
  match lengths.min?, lengths.max? with
  | some shortest, some longest =>
    let (average, _) ← s.averageLength samples g
    makeNotes (s.averageNotes average ++ s.maxEntropyNotes)
    let report : Report := {
      name := s.name
      blocks := s.allBlocks.length
      topBlocks := s.blocks.length
      questions := s.questions.length
      movingBlocks := s.allBlocks.countP (·.isRandomizable)
      variantBlocks := s.allBlocks.countP fun b => decide (b.paradigm = .all)
      branchQuestions := s.questions.countP (·.isBranch)
      paths := paths.length, shortest, longest, average
      unreachable := ← s.unreachableIds paths
      maxEntropy := ← s.maxEntropy
      singleChoice := s.idsWithChoices 1
      noChoice := s.idsWithChoices 0
      warnings := [] }
    report.withWarnings
  | _, _ => throw .unsuitable

end Survey

end Questionnaire
