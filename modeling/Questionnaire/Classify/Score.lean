/-
# Scores of responses

The likelihood of a response sums the logarithms of the probabilities of its
selections, and its entropy weighs each of them by the probability. Two
responses are compared over the questions that one of them answers; another
wording of a question counts as the same question.

Key definitions: `Odds`, `likelihood`, `entropyScore`, `comparable`, `likelihoods`.
-/
import Questionnaire.Analysis.LogTwo
import Questionnaire.Frequency

namespace Questionnaire

/-- How probabilities are looked up: first by the id of a question and then by those of its
choices. An id may have to be fit for a key. -/
abbrev Odds := Document → Except Fault (Document → Except Fault Number)

/-- Looks up probabilities. -/
def Probabilities.odds (ps : Probabilities) : Odds := fun question => do
  question.asKey
  return fun choice => do
    choice.asKey
    return .float (ps.of question choice)

/-- Looks up probabilities in a document, which has to hold a number for a choice only if the
choice is looked up. -/
def Document.odds (d : Document) : Odds := fun question => do
  let tables ← d.mapping
  question.asKey
  let table := (lookup question tables).getD (.map [])
  return fun choice => do
    let entries ← table.mapping
    choice.asKey
    ((lookup choice entries).getD (.float 0.0)).number

/-- The sum of what each selection in some answers adds by its probability. -/
def sumOverSelections (odds : Odds) (term : Number → Except Fault Float) (answers : List Answer) :
    Except Fault Float :=
  answers.foldlM (fun sum a => do
    let oddsOf ← odds a.question.id
    a.choiceIds.foldlM (fun sum id => do return sum + (← term (← oddsOf id))) sum) 0.0

/-- The logarithm of a probability, which is not negative. -/
def logOf (p : Number) : Except Fault Float :=
  if p.blt 0 then .error .unsuitable else .ok p.logTwo

/-- The logarithm of a probability times the probability. -/
def weightedLogOf (p : Number) : Except Fault Float := do
  let log ← logOf p
  return (← Document.floatOf p) * log

/-- The sum of the logarithms of the probabilities of what was selected. -/
def likelihood (odds : Odds) (answers : List Answer) : Except Fault Float :=
  sumOverSelections odds logOf answers

/-- The entropy of what a response selects. -/
def entropyScore (odds : Odds) (r : Response) : Except Fault Float :=
  (sumOverSelections odds weightedLogOf r.counted).map fun sum => -sum

/-- What a response answers to the questions of some answers, in any wording;
none if it misses one. -/
def counterparts (s : Survey) (target : Response) :
    List Answer → Except Fault (Option (List Answer))
  | [] => .ok (some [])
  | a :: rest => do
    match (← s.variants a.question).findSome? target.answerTo? with
    | none => return none
    | some found => return (← counterparts s target rest).map (found :: ·)

/-- The answers of `target` that compare with those of `base`; empty if it
misses a question of `base`. -/
def comparable (s : Survey) (base target : Response) : Except Fault (List Answer) := do
  return (← counterparts s target base.counted).getD []

/-- The likelihood of `target` over the questions of `base`, if it compares. -/
def comparedLikelihood (s : Survey) (odds : Odds) (base target : Response) :
    Except Fault (Option Float) := do
  match ← comparable s base target with
  | [] => return none
  | answers => return some (← likelihood odds answers)

/-- The entropy of `target`, if it compares with `base`. -/
def comparedEntropy (s : Survey) (odds : Odds) (base target : Response) :
    Except Fault (Option Float) := do
  match ← comparable s base target with
  | [] => return none
  | _ => return some (← entropyScore odds target)

/-- The likelihoods of all responses of a pool that compare with `base`. -/
def likelihoods (s : Survey) (odds : Odds) (base : Response) (pool : List Response) :
    Except Fault (List Float) := do
  return (← pool.mapM (comparedLikelihood s odds base)).filterMap id

end Questionnaire
