/-
# Classifying a batch

Every policy goes through the responses of a batch in order and gives one
verdict on each. The policies with thresholds note their progress: how many
responses were found valid and invalid so far, and between which scores.

Key definitions: `Progress`, `classify`, `judgeAlone`.
-/
import Questionnaire.Classify.Threshold
import Questionnaire.Classify.RareChoices
import Questionnaire.Classify.Clusters
import Questionnaire.Document.Access

namespace Questionnaire

/-- How many responses were decided alike, and between which scores they lie. -/
structure ScoreRange where
  count : Nat := 0
  low : Number := .float (1.0 / 0.0)
  high : Number := .float (-1.0 / 0.0)
  deriving Repr, Inhabited

namespace ScoreRange

/-- The range with one more score. -/
def add (r : ScoreRange) (x : Number) : ScoreRange :=
  ⟨r.count + 1, if x.blt r.low then x else r.low, if r.high.blt x then x else r.high⟩

/-- The range as progress notes give it; a whole number may be too large for them. -/
def text (r : ScoreRange) (name : String) : Except Fault String := do
  let low := writeSixPlaces (← Document.floatOf r.low)
  let high := writeSixPlaces (← Document.floatOf r.high)
  return s!"{r.count} {name} [{low}, {high}]"

end ScoreRange

/-- What was decided so far. -/
structure Progress where
  valid : ScoreRange := {}
  invalid : ScoreRange := {}
  verdicts : List Verdict := []
  deriving Repr, Inhabited

namespace Progress

/-- The progress after one more verdict, whose score must be a number. -/
def add (p : Progress) (v : Verdict) : Except Fault Progress := do
  let score ← v.score.number
  let verdicts := p.verdicts ++ [v]
  if v.valid then return { p with valid := p.valid.add score, verdicts }
  else return { p with invalid := p.invalid.add score, verdicts }

/-- The note on the progress before the response at a place. -/
def note (p : Progress) (policy : Policy) (i : Nat) : Except Fault String := do
  let valid ← p.valid.text "valid"
  let invalid ← p.invalid.text "invalid"
  return s!"Classified {i} responses ({valid}, {invalid}) using {policy.title} policy."

end Progress

/-- Whether progress is noted before the response at a place. -/
def isNoted (every : Document) (i : Nat) : Except Fault Bool := do
  let every ← every.number
  if every == 0 then throw .divisionByZero else return every.divides i

/-- The decision about one response, which is left to `judge`. -/
def classifyOne (policy : Policy) (judge : Nat → Response → InBatch Bool) (p : Progress) (i : Nat) :
    InBatch Progress := do
  if ← Batch.lift (isNoted (← get).session.config.noteEvery i) then
    Batch.inSession (Session.noteWorded .info (p.note policy i))
  match (← get).responses[i]? with
  | none => return p
  | some r =>
    let valid ← judge i r
    Batch.mark i fun r => { r with computed := if valid then .yes else .no }
    Batch.lift (p.add (((← get).responses.getD i r).verdict policy valid))

/-- The decisions about all responses, one after another. -/
def classifyEach (policy : Policy) (judge : Nat → Response → InBatch Bool) :
    InBatch (List Verdict) := do
  let size := (← get).responses.length
  return (← (List.range size).foldlM (classifyOne policy judge) {}).verdicts

/-- The verdicts that the marks of the responses show. -/
def verdictsOfMarks (policy : Policy) : InBatch (List Verdict) := do
  return (← get).responses.map fun r => r.verdict policy r.taken

/-- Gathers frequencies and notes what there is to say about it. -/
def gatherNoted (s : Survey) (smoothing : Bool) (pool : List Response) : InBatch Frequencies := do
  let fs ← Batch.lift (Frequencies.gather s smoothing pool)
  Batch.inSession ((Frequencies.gatherNotes pool fs).forM fun n => Session.note n.level n.text)
  return fs

/-- Marks the rare answers of the batch. -/
def classifyRareAnswers (s : Survey) (smoothing : Bool) (epsilon delta : Document) :
    InBatch Unit := do
  let fs ← gatherNoted s smoothing (← get).responses
  let marked ← Batch.lift (markRareAnswers s fs epsilon delta (← get).responses)
  modify fun b => { b with responses := marked }

/-- The quantile to use: the configured one if nothing is given. -/
def quantileOr (alpha : Document) : InBatch Document := do
  match alpha with
  | .null => return (← get).session.config.alpha
  | alpha => return alpha

/-- Classifies the batch by its scores of a kind. -/
def classifyByScore (k : ScoreKind) (s : Survey) (smoothing : Bool) (alpha : Document) :
    InBatch (List Verdict) := do
  let pool := (← get).responses
  let ps := probabilities (← gatherNoted s smoothing pool)
  let alpha ← quantileOr alpha
  classifyEach k.policy (k.judge s ps pool smoothing alpha)

/-- Classifies the responses of a batch. If nothing is given as quantile the configured one is
used. -/
def classify (s : Survey) (policy : Policy) (smoothing : Bool) (alpha : Document) :
    InBatch (List Verdict) := do
  let config := (← get).session.config
  match policy with
  | .clusters =>
    clusterResponses s config.clusters config.clusterRounds true
    verdictsOfMarks .clusters
  | .rareChoices =>
    classifyRareAnswers s smoothing config.epsilon config.delta
    verdictsOfMarks .rareChoices
  | .stacked =>
    classifyRareAnswers s smoothing config.epsilon config.delta
    clusterResponses s config.clusters config.clusterRounds false
    verdictsOfMarks .rareChoices
  | .entropy => classifyByScore .entropy s smoothing alpha
  | .likelihood => classifyByScore .likelihood s smoothing alpha
  | .all =>
    let _ ← gatherNoted s smoothing (← get).responses
    classifyEach .all fun _ _ => return true

/-- Judges one response of a batch against a pool, whose probabilities are used. -/
def judgeAlone (k : ScoreKind) (s : Survey) (pool : List Response) (smoothing : Bool)
    (alpha : Document) (i : Nat) : InBatch Bool := do
  match (← get).responses[i]? with
  | none => throw .outOfRange
  | some r =>
    let alpha ← quantileOr alpha
    let ps := probabilities (← gatherNoted s smoothing pool)
    k.judge s ps pool smoothing alpha i r

/-! ### Documents -/

/-- A verdict with all its fields. -/
def Verdict.toDocument (v : Verdict) : Document :=
  .record [
    ("response_id", v.responseId), ("classifier", .str v.policy.name),
    ("num_answered", .int v.answered), ("score", v.score),
    ("threshold", v.threshold), ("valid", .bool v.valid)]

/-- How many verdicts are that the response is valid. -/
def countValid (vs : List Verdict) : Nat := vs.countP (·.valid)

/-- Verdicts with their counts. -/
def verdictsDocument (vs : List Verdict) : Document :=
  .record [
    ("num_valid", .int (countValid vs)), ("num_invalid", .int (vs.length - countValid vs : Nat)),
    ("classifications", .list (vs.map (·.toDocument)))]

end Questionnaire
