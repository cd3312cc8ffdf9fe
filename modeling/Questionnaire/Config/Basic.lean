/-
# Configuration

The settings under their names. A value is kept as it was given, and one that
does not suit its use is at fault there.

Key definitions: `Config`, `Config.ofSettings`, `Config.gen`.
-/
import Questionnaire.Config.Settings
import Questionnaire.Random

namespace Questionnaire

/-- What the checks depend on besides the survey and the responses. -/
structure Config where
  /-- How many times responses are resampled; at least once. -/
  iterations : Document := .int 2000
  /-- The quantile of resampled means that is the threshold. -/
  alpha : Document := .float 0.05
  /-- How far apart the counts of rare and common choices may be. -/
  epsilon : Document := .float 0.5
  /-- The part of the expected rare answers by which the threshold is lowered. -/
  delta : Document := .float 0.5
  /-- With fewer distinct scores than this there is no threshold. -/
  minDistinctScores : Document := .int 6
  /-- How many clusters to make; at least one. -/
  clusters : Document := .int 2
  /-- How many rounds clustering may take. -/
  clusterRounds : Document := .int 50
  /-- How many respondents the average path length is over. -/
  pathSamples : Document := .int 5000
  /-- Smaller samples are not examined for order bias. -/
  orderMinSamples : Document := .int 5
  /-- Samples whose sizes are closer than this are not examined for order bias. -/
  orderBalance : Document := .float 0.2
  /-- After how many responses progress is noted. -/
  noteEvery : Document := .int 25
  /-- The seed of the generator. -/
  seed : Document := .null
  deriving Repr, Inhabited

namespace Config

/-- The configuration of some settings. -/
def ofSettings (s : Settings) : Config where
  iterations := s.value "bootstrap_iterations"
  alpha := s.value "alpha"
  epsilon := s.value "epsilon"
  delta := s.value "delta"
  minDistinctScores := s.value "min_distinct_scores"
  clusters := s.value "cluster_k"
  clusterRounds := s.value "cluster_max_iterations"
  pathSamples := s.value "path_length_samples"
  orderMinSamples := s.value "order_bias_min_samples"
  orderBalance := s.value "order_bias_balance"
  noteEvery := s.value "log_every"
  seed := s.value "seed"

/-- The configuration that a document gives. -/
def ofDocument (d : Document) : Except Fault Config := (Settings.ofDocument d).map ofSettings

/-- The generator of the configured seed; without one, that of zero. -/
def gen (c : Config) : Except Fault Gen :=
  match c.seed with
  | .null => .ok (.ofSeed 0)
  | seed => seed.whole.map .ofSeed

end Config

end Questionnaire
