/-
# Clusters of responses

Responses are clustered as points with one coordinate for each question. A
response's score is its distance from the centre of its cluster. Under
supervision the members of a cluster take the validity that most of them are
known to have.

Key definitions: `clusterMarks`, `prevailing`, `clusterResponses`.
-/
import Questionnaire.Classify.Basic
import Questionnaire.Cluster.Basic
import Questionnaire.Tally

namespace Questionnaire

open Cluster (Point Clustering distance kmodes)

/-- The name of a cluster. Without a round responses are in none. -/
def clusterName : Option Nat → String
  | some label => s!"cluster_{label}"
  | none => "cluster_-1"

/-- The centre that a label stands for; without a label it is the last one. -/
def Cluster.Clustering.centre (c : Clustering) : Option Nat → Point
  | some label => c.centres.getD label []
  | none => c.centres.getLastD []

/-- The marks of a response that belongs to a cluster. -/
def clusterMarks (c : Clustering) (label : Option Nat) (p : Point) (r : Response) : Response :=
  { r with
    cluster := .str (clusterName label)
    score := .float (Float.ofNat (distance p (c.centre label)))
    threshold := .null }

/-- The validity known of most members; of several, the one met first. -/
def prevailing (members : List Response) : Validity :=
  (((Tally.ofList (members.map (·.known))).mostCommon.head?).map (·.1)).getD .maybe

/-- The responses with the validity that prevails among those with their label. -/
def supervise (labelled : List (Option Nat × Response)) : List Response :=
  labelled.map fun (label, r) =>
    { r with computed := prevailing ((labelled.filter (·.1 == label)).map (·.2)) }

/-- What clustering has to say. -/
def clusterNotes (c : Clustering) : List Note :=
  match c.settledAfter with
  | some n => [⟨.debug, s!"k-modes converged after {n} iterations"⟩]
  | none => []

/-- The responses marked by a clustering of their points. -/
def markClusters (c : Clustering) (points : List Point) (supervised : Bool)
    (responses : List Response) : List Response :=
  let labelled := (c.labels.zip (points.zip responses)).map fun (label, p, r) =>
    (label, clusterMarks c label p r)
  if supervised then supervise labelled else labelled.map (·.2)

/-- Clusters the responses of a batch. -/
def clusterResponses (s : Survey) (k rounds : Document) (supervised : Bool) :
    InBatch Unit := do
  let responses := (← get).responses
  if responses.isEmpty then return
  let ranks ← Batch.lift (responses.mapM (·.point s))
  let points : List Point := ranks.map (·.map Int.ofNat)
  let c ← Batch.inSession (Session.tryDraw (kmodes points k rounds))
  Batch.inSession ((clusterNotes c).forM fun n => Session.note n.level n.text)
  modify fun b => { b with responses := markClusters c points supervised responses }

end Questionnaire
