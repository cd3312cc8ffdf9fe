/-
# Frequencies and probabilities of answers

The selections of each question are counted by the ids of the choices, and the
counts are scaled to probabilities. Custom questions do not count. Smoothing
counts every choice of the survey once if nobody selected it. All ids that are
counted have to be fit for keys.

Key definitions: `Frequencies.countAll`, `Frequencies.smoothed`,
`Frequencies.gather`, `probabilities`.
-/
import Questionnaire.Whole
import Questionnaire.Response.Basic
import Questionnaire.Document.Grid
import Questionnaire.Note
import Questionnaire.Tally

namespace Questionnaire

/-- For questions, by id, how often each choice was selected. -/
abbrev Frequencies := List (Document × Tally Document)

/-- For questions, by id, the probability of each choice. -/
abbrev Probabilities := List (Document × List (Document × Float))

namespace Frequencies

/-- The counts of a question, if it has an entry. -/
def counts? (fs : Frequencies) (question : Document) : Option (Tally Document) :=
  fs.lookup question

/-- How often a choice of a question was selected. -/
def count (fs : Frequencies) (question choice : Document) : Nat :=
  ((fs.counts? question).getD []).count choice

/-- Changes the counts of a question; a question without an entry gets one. -/
def update (question : Document) (change : Tally Document → Tally Document) :
    Frequencies → Frequencies
  | [] => [(question, change [])]
  | (id, t) :: rest =>
    if id == question then (id, change t) :: rest else (id, t) :: update question change rest

/-- Counts the selections of an answer. -/
def addAnswer (fs : Frequencies) (a : Answer) : Frequencies :=
  fs.update a.question.id (Tally.addAll a.choiceIds)

/-- Counts the selections of some answers. -/
def countAll (answers : List Answer) : Frequencies := answers.foldl addAnswer []

/-- The answers of some responses that count. -/
def countedAnswers (responses : List Response) : List Answer := responses.flatMap (·.counted)

/-- Counts the choices that were not selected once. -/
def countUnselected (choices : List Choice) (t : Tally Document) : Tally Document :=
  choices.foldl (fun t c => if t.count c.id = 0 then t.add c.id else t) t

/-- The questions of a survey that count. -/
def countedQuestions (s : Survey) : List Question := s.questions.filter (!·.isCustom)

/-- The counts with every choice of the questions counted at least once. -/
def smoothed (fs : Frequencies) (qs : List Question) : Frequencies :=
  qs.foldl (fun fs q => fs.update q.id (countUnselected q.choices)) fs

/-- All that was counted. -/
def total (fs : Frequencies) : Nat := sumOf (fs.map fun (_, t) => Tally.total t)

/-- Whether the ids in an answer are fit for keys. -/
def hasKeys (a : Answer) : Bool := a.question.id.isKey && a.choiceIds.all (·.isKey)

/-- Whether the ids of a question and of its choices are fit for keys. -/
def offersKeys (q : Question) : Bool := q.id.isKey && q.choices.all (·.id.isKey)

/-- The counts of the selections in some responses. -/
def ofResponses (responses : List Response) : Except Fault Frequencies :=
  let answers := countedAnswers responses
  if answers.all hasKeys then .ok (countAll answers) else .error .illTyped

/-- The counts of some responses to a survey, with or without smoothing. -/
def gather (s : Survey) (smoothing : Bool) (responses : List Response) :
    Except Fault Frequencies := do
  let fs ← ofResponses responses
  if !smoothing then return fs
  else if (countedQuestions s).all offersKeys then return fs.smoothed (countedQuestions s)
  else throw .illTyped

/-- What gathering counts has to say: how many choices nobody selected, as each of them adds
one. -/
def gatherNotes (responses : List Response) (fs : Frequencies) : List Note :=
  let raised := fs.total - (countAll (countedAnswers responses)).total
  if 0 < raised then [⟨.info, s!"Number needing smoothing: {raised}"⟩] else []

end Frequencies

/-- A count scaled by the total; if that is zero, so is the result. -/
def share (total count : Float) : Float := if total == 0.0 then 0.0 else count / total

/-- Counts scaled to a sum of one; counts that are all zero stay zero. -/
def scaled (t : Tally Document) : List (Document × Float) :=
  t.map fun (id, n) => (id, share (Float.ofNat t.total) (Float.ofNat n))

/-- The probabilities that counts give. -/
def probabilities (fs : Frequencies) : Probabilities := fs.map fun (id, t) => (id, scaled t)

namespace Probabilities

/-- The probability of a choice of a question; zero if nothing is known about it. -/
def of (ps : Probabilities) (question choice : Document) : Float :=
  (((ps.lookup question).getD []).lookup choice).getD 0.0

/-- The sum of the numbers under keys, from the first to the last. -/
def sumEntries (entries : List (Document × Document)) : Except Fault Number :=
  entries.foldlM (fun sum (_, n) => do Document.orTooLarge (sum.add? (← n.number))) 0

/-- Numbers under keys scaled to a sum of one. A sum of zero leaves zeros. -/
def scaleEntries (d : Document) : Except Fault (List (Document × Float)) := do
  let entries ← d.mapping
  let total ← Document.floatOf (← sumEntries entries)
  entries.mapM fun (id, n) => do
    if total == 0.0 then return (id, 0.0)
    else return (id, (← Document.floatOf (← n.number)) / total)

/-- The probabilities that counts in a document give. -/
def ofDocument (d : Document) : Except Fault Probabilities := do
  (← d.mapping).mapM fun (id, counts) => do return (id, ← scaleEntries counts)

end Probabilities

end Questionnaire
