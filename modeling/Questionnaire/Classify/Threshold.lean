/-
# Scores against thresholds

The score of a response is compared with a quantile of the mean scores of
resampled pools. If too few different scores are there to compare with, the
response is taken without a threshold.

Key definitions: `ScoreKind`, `ScoreKind.judge`.
-/
import Questionnaire.Classify.Basic
import Questionnaire.Classify.Score

namespace Questionnaire

/-- What is scored. -/
inductive ScoreKind where
  | entropy
  | likelihood
  deriving DecidableEq, Repr, Inhabited

namespace ScoreKind

/-- The policy that uses the score. -/
def policy : ScoreKind → Policy
  | entropy => .entropy
  | likelihood => .likelihood

/-- The score of a response. -/
def score (ps : Probabilities) (r : Response) : ScoreKind → Except Fault Float
  | entropy => entropyScore ps.odds r
  | likelihood => Questionnaire.likelihood ps.odds r.counted

/-- The score of a response of the pool, if it compares with `base`. -/
def compared (s : Survey) (ps : Probabilities) (base target : Response) :
    ScoreKind → Except Fault (Option Float)
  | entropy => comparedEntropy s ps.odds base target
  | likelihood => comparedLikelihood s ps.odds base target

/-- The place of the quantile among `n` means: the next one up for entropies,
the next one down for likelihoods. -/
def place? (alpha : Number) (n : Nat) : ScoreKind → Option Int
  | entropy => (alpha * .int n).ceil?
  | likelihood => (alpha * .int n).floor?

/-- The fault of a quantile that is no finite number. -/
def placeFault (alpha : Number) (n : Nat) : Fault :=
  if (alpha * .int n).toFloat.isNaN then .unsuitable else .tooLarge

/-- Whether a score is on the good side of a threshold: attention lowers the
entropy and raises the likelihood. -/
def accepts (x threshold : Float) : ScoreKind → Bool
  | entropy => decide (x < threshold)
  | likelihood => decide (threshold < x)

/-- A place moved into a list of `n` elements: to its ends if it lies outside. -/
def clampPlace (place : Int) (n : Nat) : Nat := (min place (n - 1)).toNat

/-- The quantile of some means. -/
def threshold (alpha : Document) (means : List Float) (k : ScoreKind) : Except Fault Float := do
  let alpha ← alpha.number
  match k.place? alpha means.length with
  | none => .error (placeFault alpha means.length)
  | some place =>
    match means[clampPlace place means.length]? with
    | some x => .ok x
    | none => .error .outOfRange

/-- The different scores of a list, each once. -/
def distinctScores : List Float → List Float
  | [] => []
  | x :: xs => if xs.any (· == x) then distinctScores xs else x :: distinctScores xs

/-- Judges the response at a place against a pool. Its score is marked first;
the threshold is marked if it is found to be needed or not. -/
def judge (k : ScoreKind) (s : Survey) (ps : Probabilities) (pool : List Response)
    (smoothing : Bool) (alpha : Document) (i : Nat) (r : Response) : InBatch Bool := do
  let score ← Batch.lift (k.score ps r)
  Batch.mark i fun r => { r with score := .float score }
  let others ← Batch.lift (likelihoods s ps.odds r pool)
  let needed ← Batch.lift (← get).session.config.minDistinctScores.number
  if (Number.int (distinctScores others).length).blt needed then
    Batch.mark i fun r => { r with threshold := .null }
    return true
  else
    let key : MeansKey := ⟨k.policy.label, r.questionKeys, smoothing⟩
    let means ← Batch.inSession (Session.meansFor key pool fun t => k.compared s ps r t)
    let threshold ← Batch.lift (k.threshold alpha means)
    Batch.mark i fun r => { r with threshold := .float threshold }
    return k.accepts score threshold

end ScoreKind

end Questionnaire
