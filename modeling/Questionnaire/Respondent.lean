/-
# Simulated respondents

A simulated respondent answers a whole survey by a rule. One kind answers
without reading, by the places of the choices alone; the other kind has a
preference for some choices and does not mind where they stand.

Key definitions: `Habit.choose`, `Preferences.choose`, `respond`.
-/
import Questionnaire.Traversal.Basic
import Questionnaire.Weights

namespace Questionnaire

/-- How a respondent who does not read picks among the choices as shown: any,
the first, the last, or one that is not at an end. -/
inductive Habit where
  | uniform
  | first
  | last
  | inner
  deriving DecidableEq, Repr, Inhabited

namespace Habit

/-- The name of a habit. -/
def name : Habit → String
  | uniform => "uniform"
  | first => "first"
  | last => "last"
  | inner => "inner"

/-- The habit with the name. -/
def ofName? : String → Option Habit
  | "uniform" => some uniform
  | "first" => some first
  | "last" => some last
  | "inner" => some inner
  | _ => none

/-- One of several choices. -/
def pickOne (habit : Habit) (choices : List Choice) : Draw (List Choice) := fun g =>
  let (i, g) :=
    if habit = inner ∧ 2 < choices.length then g.between 1 (choices.length - 1)
    else g.below choices.length
  (choices[i]?.toList, g)

/-- Some of several choices, each by a coin, and one if all coins fail. -/
def pickSome (choices : List Choice) : Draw (List Choice) := fun g =>
  let (coins, g) := Gen.times Gen.coin choices.length g
  let picked := ((choices.zip coins).filter (·.2)).map (·.1)
  if coins.any (·) then (picked, g)
  else
    let (i, g) := g.below choices.length
    (choices[i]?.toList, g)

/-- The choices that the habit selects of a question. -/
def choose (habit : Habit) (shown : Shown) : Draw (List Choice) := fun g =>
  let choices := shown.options.map (·.choice)
  if shown.question.isFreetext || choices.isEmpty then ([], g)
  else match habit with
    | first => (choices.head?.toList, g)
    | last => (choices.getLast?.toList, g)
    | _ => if shown.question.isExclusive then habit.pickOne choices g else pickSome choices g

end Habit

/-- For some questions, by id, the weights of their choices in source order, as a document gives
them. Where it gives nothing any choice is as good. -/
structure Preferences where
  document : Document
  deriving Repr, Inhabited

namespace Preferences

/-- The scaled weights of a question's choices, if it has some. -/
def weightsOf? (preferences : Preferences) (q : Question) :
    Except Fault (Option (List Float)) := do
  let entries ← preferences.document.mapping
  q.id.asKey
  match Document.lookup q.id entries with
  | none | some .null => return none
  | some weights => return some (← scaledWeights weights)

/-- The choice that preferences select of a question, by weight where they have
weights and otherwise any. -/
def choose (preferences : Preferences) (shown : Shown) : Trial (List Choice) := fun g => do
  let q := shown.question
  if q.isFreetext || q.choices.isEmpty then return ([], g)
  else
    let (i, g) ←
      match ← preferences.weightsOf? q with
      | none => .ok (g.below q.choices.length)
      | some weights => Gen.weighted q.choices.length weights g
    return (q.choices[i]?.toList, g)

end Preferences

/-- The traversal of a respondent who answers every question by a rule. -/
def respond (s : Survey) (choose : Shown → Trial (List Choice)) : Trial Traversal := fun g => do
  let (t, _) ← Traversal.start s g
  match t.finish choose with
  | (.error fault, _) => .error fault
  | (.ok (), t) => return (t, t.gen)

/-- The response with the given id of a respondent with a habit. -/
def Habit.respond (habit : Habit) (s : Survey) (id : Document) : Trial Response := fun g => do
  let (t, g) ← Questionnaire.respond s (fun shown g => .ok (habit.choose shown g)) g
  return ({ t.response id with known := .no }, g)

/-- The response with the given id of a respondent with preferences. -/
def Preferences.respond (preferences : Preferences) (s : Survey) (id : Document) :
    Trial Response := fun g => do
  let (t, g) ← Questionnaire.respond s preferences.choose g
  return ({ t.response id with known := .yes }, g)

/-- The id of the response with the given number. -/
def responseId (n : Nat) : Document := .str s!"sr{n}"

/-- The responses of `n` respondents, one after another; the ids count up from `first`. -/
def simulate (respond : Document → Trial Response) (first n : Nat) : Trial (List Response) :=
  Gen.tryEach (fun i => respond (responseId (first + i))) (List.range n)

end Questionnaire
