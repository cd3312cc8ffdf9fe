/-
# Entropy

The bits that answers carry: at most, along the path that offers the most
choices, and in fact, over the responses of each path. An answer is counted
together with those that say the same in other wordings of its question.
-/
import Questionnaire.Analysis.LogTwo
import Questionnaire.Path.Basic
import Questionnaire.Path.Tour
import Questionnaire.Stats.Sum
import Questionnaire.Decimal.Style
import Questionnaire.Document.Display

namespace Questionnaire

/-- The bits that free choices carry in each of some questions. -/
def choiceBits (qs : List Question) : Float :=
  plainSum ((qs.filter (!·.choices.isEmpty)).map fun q => logTwo (Float.ofNat q.choices.length))

/-- The greater of two floats; the first one if neither is greater. -/
def greater (a b : Float) : Float := if a < b then b else a

namespace Survey

/-- The bits of the path with the most. -/
def maxEntropy (s : Survey) : Except Fault Float := do
  let bits ← (← s.paths).mapM fun p => do return choiceBits (← tour p (.ofSeed 0)).1
  return bits.foldl greater 0.0

/-- What finding the path with the most bits has to say. -/
def maxEntropyNotes (s : Survey) : List Note :=
  s.pathNotes ++ match s.maxEntropy with
    | .ok bits => [⟨.info,
        s!"Maximum possible entropy for survey {s.name.display}: {writeSixPlaces bits}"⟩]
    | .error _ => []

/-- The questions that the entropy is about. -/
def measured (s : Survey) : List Question :=
  s.questions.filter fun q => !q.isFreetext && !q.isCustom

/-- How many of some responses select one of the choices. -/
def countSelecting (choices : List Choice) (responses : List Response) : Except Fault Nat := do
  let selecting ← responses.mapM (·.selectsAny choices)
  return selecting.countP (·)

/-- For each choice of each measured question, how many responses of each group
select it or a choice that says the same. -/
def cellCounts (s : Survey) (groups : List (List Response)) : Except Fault (List Nat) := do
  let cells ← s.measured.mapM fun q => q.choices.mapM fun c => do
    let same ← s.equivalentChoices q c
    groups.mapM (countSelecting same)
  return cells.flatten.flatten

/-- The sum of `- p log p` over counts out of a total. -/
def entropyOf (total : Nat) (counts : List Nat) : Float :=
  -counts.foldl (fun sum n =>
    let p := Float.ofNat n / Float.ofNat total
    sum + logTwo p * p) 0.0

/-- The entropy of responses. Of fewer than two it is zero. -/
def entropy (s : Survey) (responses : List Response) : Except Fault Float :=
  if responses.length < 2 then .ok 0.0
  else do
    let groups ← groupByPath s (← s.paths) responses
    let counts ← s.cellCounts (groups.map (·.2))
    return entropyOf responses.length counts

/-- What measuring the entropy has to say. -/
def entropyNotes (s : Survey) (responses : List Response) : List Note :=
  if responses.length < 2 then []
  else s.pathNotes ++ match s.paths with
    | .ok paths => groupNotes s paths responses
    | .error _ => []

end Survey

end Questionnaire
