/-
# Choices that are rarely selected

The counts of a question's choices are climbed from the lowest; as long as a
count is not much greater than the one before, its choices are rare. A question
all of whose counted choices would be rare has none. A response with more rare
answers than expected is invalid.

Key definitions: `lowTiers`, `rareChoices`, `RareChoices.rareAnswers`, `RareChoices.threshold`.
-/
import Questionnaire.Classify.Basic
import Questionnaire.Frequency

namespace Questionnaire

/-- The different counts of a tally in rising order. -/
def tiers (t : Tally Document) : List Nat :=
  (t.map (·.2)).eraseDups.mergeSort fun m n => decide (m ≤ n)

/-- Whether a count is much greater than the one before. -/
def isGap (epsilon : Number) (before count : Nat) : Bool :=
  ((1 + epsilon) * .int before).blt (.int count)

/-- The counts after `before` up to the first gap. -/
def upToGap (epsilon : Number) : Nat → List Nat → List Nat
  | _, [] => []
  | before, n :: ns => if isGap epsilon before n then [] else n :: upToGap epsilon n ns

/-- The counts below the first gap. -/
def lowTiers (epsilon : Number) : List Nat → List Nat
  | [] => []
  | n :: ns => n :: upToGap epsilon n ns

/-- The choices of a question with a count below the first gap; none if that
were all that were counted. -/
def rareChoicesOf (epsilon : Number) (t : Tally Document) (q : Question) : List Choice :=
  let low := lowTiers epsilon (tiers t)
  let these := q.choices.filter fun c => (t.lookup c.id).any low.contains
  if t.length ≤ 1 || these.length == t.length then [] else these

/-- The questions with rare choices, and these. -/
abbrev RareChoices := List (Question × List Choice)

/-- Whether the counts of a question have a gap to look for. -/
def hasTiers (fs : Frequencies) (q : Question) : Bool :=
  match tiers ((fs.counts? q.id).getD []) with
  | _ :: _ :: _ => true
  | _ => false

/-- Whether several choices of a question were counted. -/
def isContested (fs : Frequencies) (q : Question) : Bool :=
  match (fs.counts? q.id).getD [] with
  | _ :: _ :: _ => true
  | _ => false

/-- The tolerance as a number, which is needed only if there is a gap to look for. -/
def toleranceFor (s : Survey) (fs : Frequencies) (epsilon : Document) : Except Fault Number :=
  if s.questions.any (hasTiers fs) then epsilon.number else .ok 0

/-- Whether the ids that finding the rare choices looks up are fit for keys. -/
def areLookedUp (s : Survey) (fs : Frequencies) : Bool :=
  s.questions.all fun q => q.id.isKey && (!isContested fs q || q.choices.all (·.id.isKey))

/-- The rare choices of a survey's questions, by a tolerance. -/
def rareChoicesWithin (s : Survey) (fs : Frequencies) (epsilon : Number) : RareChoices :=
  s.questions.filterMap fun q =>
    match rareChoicesOf epsilon ((fs.counts? q.id).getD []) q with
    | [] => none
    | these => some (q, these)

/-- The rare choices of a survey's questions. -/
def rareChoices (s : Survey) (fs : Frequencies) (epsilon : Document) :
    Except Fault RareChoices := do
  if !areLookedUp s fs then throw .illTyped
  let epsilon ← toleranceFor s fs epsilon
  return rareChoicesWithin s fs epsilon

namespace RareChoices

/-- The rare choices of a question, if it has some. -/
def of? (rare : RareChoices) (q : Question) : Option (List Choice) :=
  (rare.find? (·.1.key == q.key)).map (·.2)

/-- Whether an answer selects something, and rare choices only. -/
def isRare (rare : RareChoices) (a : Answer) : Bool :=
  match rare.of? a.question with
  | none => false
  | some these => !a.selections.isEmpty && a.choices.all these.contains

/-- How many answers of a response are rare. -/
def rareAnswers (rare : RareChoices) (r : Response) : Nat := r.counted.countP rare.isRare

/-- How many rare answers to expect: the share of rare choices of each question. -/
def expected (rare : RareChoices) : Number :=
  (rare.map fun (q, these) =>
    Number.float (Float.ofNat these.length / Float.ofNat q.choices.length)).foldl (· + ·) 0

/-- The number of rare answers that a valid response does not exceed. -/
def threshold (rare : RareChoices) (delta : Number) : Except Fault Number :=
  Document.orTooLarge ((1 - delta).mul? rare.expected)

/-- The response with the marks of its rare answers. -/
def mark (rare : RareChoices) (threshold : Number) (r : Response) : Response :=
  let count := rare.rareAnswers r
  { r with
    score := .float (Float.ofNat count)
    threshold := .ofNumber threshold
    computed := if threshold.blt (.int count) then .no else .yes }

end RareChoices

/-- The responses with the marks of their rare answers. -/
def markRareAnswers (s : Survey) (fs : Frequencies) (epsilon delta : Document)
    (responses : List Response) : Except Fault (List Response) := do
  let rare ← rareChoices s fs epsilon
  let threshold ← rare.threshold (← delta.number)
  return responses.map (rare.mark threshold)

end Questionnaire
