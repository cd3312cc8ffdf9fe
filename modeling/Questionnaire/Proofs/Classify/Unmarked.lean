/-
# Responses without their marks

A response without its marks has an id, answers and a known validity. The
frequencies and scores of responses, and the points for clusters, are those of
the responses without marks. A policy that marks responses writes over what was
there, so its decisions do not depend on earlier marks. Only the policy that
takes all responses leaves scores and thresholds as they are.

Key definition: `Response.unmarked`.
Key theorems: `Session.gathered_unmarked`, `ScoreKind.decision_unmarked`,
`supervise_undecided`, `Session.decisions_unmarked`.
-/
import Questionnaire.Proofs.Classify.Decisions

namespace Questionnaire

/-- The response without what classifying it left on it. -/
def Response.unmarked (r : Response) : Response := { id := r.id, answers := r.answers, known := r.known }

/-! ### Frequencies and scores -/

/-- Responses with the same answers that count have the same frequencies. -/
theorem Frequencies.countedAnswers_map {f : Response → Response}
    (hf : ∀ r, (f r).counted = r.counted) (pool : List Response) :
    countedAnswers (pool.map f) = countedAnswers pool := by
  unfold countedAnswers
  rw [List.flatMap_map]
  exact List.flatMap_congr fun r _ => hf r

theorem Session.gathered_map {f : Response → Response} (hf : ∀ r, (f r).counted = r.counted)
    (s : Survey) (smoothing : Bool) (pool : List Response) :
    gathered s smoothing (pool.map f) = gathered s smoothing pool := by
  unfold gathered Frequencies.gather Frequencies.ofResponses Frequencies.gatherNotes
  rw [Frequencies.countedAnswers_map hf]

theorem Session.gathered_unmarked (s : Survey) (smoothing : Bool) (pool : List Response) :
    gathered s smoothing (pool.map (·.unmarked)) = gathered s smoothing pool :=
  gathered_map (f := Response.unmarked) (fun _ => rfl) s smoothing pool

theorem counterparts_unmarked (s : Survey) (target : Response) : ∀ answers : List Answer,
    counterparts s target.unmarked answers = counterparts s target answers
  | [] => rfl
  | a :: rest => by
    have hanswers : target.unmarked.answerTo? = target.answerTo? := rfl
    rw [counterparts, counterparts, counterparts_unmarked s target rest, hanswers]

theorem comparable_unmarked (s : Survey) (base target : Response) :
    comparable s base.unmarked target.unmarked = comparable s base target := by
  unfold comparable
  rw [counterparts_unmarked]
  rfl

theorem likelihoods_unmarked (s : Survey) (odds : Odds) (base : Response) (pool : List Response) :
    likelihoods s odds base.unmarked (pool.map (·.unmarked)) = likelihoods s odds base pool := by
  have hone : ∀ target : Response, comparedLikelihood s odds base.unmarked target.unmarked =
      comparedLikelihood s odds base target := by
    intro target
    unfold comparedLikelihood
    rw [comparable_unmarked]
  unfold likelihoods
  rw [List.mapM_map]
  simp only [Function.comp_def, hone]

namespace ScoreKind

theorem compared_unmarked (k : ScoreKind) (s : Survey) (ps : Probabilities)
    (base target : Response) :
    k.compared s ps base.unmarked target.unmarked = k.compared s ps base target := by
  cases k with
  | entropy =>
    unfold compared comparedEntropy
    rw [comparable_unmarked]
    rfl
  | likelihood =>
    unfold compared comparedLikelihood
    rw [comparable_unmarked]

end ScoreKind

/-- Means of things that are scored by way of others are means of these. -/
theorem Session.meansFor_map {α β : Type} (key : MeansKey) (f : α → β) (pool : List α)
    (score : β → Except Fault (Option Float)) :
    meansFor key (pool.map f) score = meansFor key pool (fun x => score (f x)) := by
  unfold meansFor
  rw [List.mapM_map, List.isEmpty_map, List.length_map]
  rfl

theorem ScoreKind.decision_unmarked (k : ScoreKind) (s : Survey) (ps : Probabilities)
    (pool : List Response) (smoothing : Bool) (alpha : Document) (r : Response) :
    k.decision s ps (pool.map (·.unmarked)) smoothing alpha r.unmarked =
      k.decision s ps pool smoothing alpha r := by
  unfold decision
  have hscore : k.score ps r.unmarked = k.score ps r := by cases k <;> rfl
  rw [hscore, likelihoods_unmarked]
  simp only [Session.meansFor_map, compared_unmarked]
  rfl

theorem Session.decideEach_map (policy : Policy) (decide : Response → InSession Verdict)
    (f : Response → Response) (responses : List Response) :
    decideEach policy decide (responses.map f) =
      decideEach policy (fun r => decide (f r)) responses := by
  unfold decideEach
  rw [List.zipIdx_map, List.foldlM_map]
  rfl

theorem Session.decisionsByScore_unmarked (k : ScoreKind) (s : Survey) (smoothing : Bool)
    (alpha : Document) (pool : List Response) :
    decisionsByScore k s smoothing alpha (pool.map (·.unmarked)) =
      decisionsByScore k s smoothing alpha pool := by
  unfold decisionsByScore
  simp only [gathered_unmarked, decideEach_map, ScoreKind.decision_unmarked]

/-! ### Marks that are written over -/

/-- The response without its cluster. -/
def Response.unclustered (r : Response) : Response := { r with cluster := .null }

/-- Rare answers are marked whatever the marks were; only a cluster stays. -/
theorem markRareAnswers_unmarked (s : Survey) (fs : Frequencies) (epsilon delta : Document)
    (responses : List Response) :
    markRareAnswers s fs epsilon delta (responses.map (·.unmarked)) =
      (do return (← markRareAnswers s fs epsilon delta responses).map (·.unclustered)) := by
  unfold markRareAnswers
  simp only [bind_assoc, pure_bind, List.map_map]
  rfl

theorem Session.rareMarked_unmarked (s : Survey) (smoothing : Bool) (epsilon delta : Document)
    (responses : List Response) :
    rareMarked s smoothing epsilon delta (responses.map (·.unmarked)) =
      (do return (← rareMarked s smoothing epsilon delta responses).map (·.unclustered)) := by
  unfold rareMarked
  rw [gathered_unmarked, bind_assoc]
  refine congrArg _ (funext fun fs => ?_)
  rw [markRareAnswers_unmarked]
  cases markRareAnswers s fs epsilon delta responses <;> rfl

/-- The responses with their labels, as clustering marks them. -/
def labelled (c : Cluster.Clustering) (points : List Cluster.Point) (responses : List Response) :
    List (Option Nat × Response) :=
  (c.labels.zip (points.zip responses)).map fun (label, p, r) => (label, clusterMarks c label p r)

theorem labelled_map (c : Cluster.Clustering) (points : List Cluster.Point)
    (responses : List Response) (f : Response → Response) :
    labelled c points (responses.map f) = (c.labels.zip (points.zip responses)).map
      fun (label, p, r) => (label, clusterMarks c label p (f r)) := by
  unfold labelled
  rw [List.zip_map_right, List.zip_map_right, List.map_map]
  rfl

theorem markClusters_unclustered (c : Cluster.Clustering) (points : List Cluster.Point)
    (responses : List Response) :
    markClusters c points false (responses.map (·.unclustered)) =
      markClusters c points false responses := by
  have hsame : labelled c points (responses.map (·.unclustered)) = labelled c points responses :=
    labelled_map c points responses _
  exact congrArg (List.map (·.2)) hsame

/-- The response without what it was found to be. -/
def Response.undecided (r : Response) : Response := { r with computed := .maybe }

/-- Under supervision the validities are written over: only the known ones matter. -/
theorem supervise_undecided (entries : List (Option Nat × Response)) :
    supervise (entries.map fun (label, r) => (label, r.undecided)) = supervise entries := by
  have hmembers : ∀ label, prevailing (((entries.map fun (label, r) =>
      (label, Response.undecided r)).filter (·.1 == label)).map (·.2)) =
        prevailing ((entries.filter (·.1 == label)).map (·.2)) := by
    intro label
    unfold prevailing
    simp only [List.filter_map, List.map_map]
    rfl
  unfold supervise
  rw [List.map_map]
  refine List.map_congr_left fun entry _ => ?_
  simp only [Function.comp_apply, hmembers]
  rfl

theorem markClusters_unmarked (c : Cluster.Clustering) (points : List Cluster.Point)
    (responses : List Response) :
    markClusters c points true (responses.map (·.unmarked)) =
      markClusters c points true responses := by
  have hundecided : labelled c points (responses.map (·.unmarked)) =
      (labelled c points responses).map fun (label, r) => (label, r.undecided) := by
    rw [labelled_map, labelled, List.map_map]
    rfl
  calc markClusters c points true (responses.map (·.unmarked))
      = supervise (labelled c points (responses.map (·.unmarked))) := rfl
    _ = supervise (labelled c points responses) := by rw [hundecided, supervise_undecided]
    _ = markClusters c points true responses := rfl

/-- If what is left out shows neither in the points nor in the marks, it may be left out. -/
theorem Session.clusterMarked_map {s : Survey} {supervised : Bool} {f : Response → Response}
    (hpoint : ∀ r, (f r).point s = r.point s)
    (hmarks : ∀ c points responses, markClusters c points supervised (responses.map f) =
      markClusters c points supervised responses) (k rounds : Document)
    (responses : List Response) :
    clusterMarked s k rounds supervised (responses.map f) =
      clusterMarked s k rounds supervised responses := by
  unfold clusterMarked
  rw [List.isEmpty_map]
  split
  · rename_i hempty
    rw [List.isEmpty_iff.mp hempty]
    rfl
  · rw [List.mapM_map]
    simp only [Function.comp_def, hpoint, hmarks]

theorem Session.clusterMarked_unmarked (s : Survey) (k rounds : Document)
    (responses : List Response) :
    clusterMarked s k rounds true (responses.map (·.unmarked)) =
      clusterMarked s k rounds true responses :=
  clusterMarked_map (f := Response.unmarked) (fun _ => rfl) markClusters_unmarked k rounds responses

theorem Session.clusterMarked_unclustered (s : Survey) (k rounds : Document)
    (responses : List Response) :
    clusterMarked s k rounds false (responses.map (·.unclustered)) =
      clusterMarked s k rounds false responses :=
  clusterMarked_map (f := Response.unclustered) (fun _ => rfl) markClusters_unclustered k rounds
    responses

/-- **The decisions do not depend on the marks**, except for the policy that takes all responses. -/
theorem Session.decisions_unmarked {policy : Policy} (hpolicy : policy ≠ .all) (s : Survey)
    (smoothing : Bool) (alpha : Document) (responses : List Response) :
    decisions s policy smoothing alpha (responses.map (·.unmarked)) =
      decisions s policy smoothing alpha responses := by
  unfold decisions
  refine congrArg _ (funext fun config => ?_)
  cases policy with
  | clusters =>
    dsimp only
    rw [clusterMarked_unmarked]
  | rareChoices =>
    simp only [rareMarked_unmarked, bind_assoc, pure_bind, List.map_map]
    rfl
  | stacked =>
    simp only [rareMarked_unmarked, bind_assoc, pure_bind, clusterMarked_unclustered]
  | entropy => exact decisionsByScore_unmarked .entropy s smoothing alpha responses
  | likelihood => exact decisionsByScore_unmarked .likelihood s smoothing alpha responses
  | all => exact absurd rfl hpolicy

end Questionnaire
