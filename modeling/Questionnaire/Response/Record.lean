/-
# Response documents

A response is written with the ids of its questions and choices and read back
against the survey that it answers, by the first question and the first choice
with the id.
-/
import Questionnaire.Response.Basic
import Questionnaire.Document.Access
import Questionnaire.Document.Display

namespace Questionnaire

/-- Reads the name of a validity. -/
def Validity.ofDocument (d : Document) : Except Fault Validity :=
  match d with
  | .str name =>
    match Validity.ofName? name with
    | some v => .ok v
    | none => .error .unknownValidity
  | _ => .error .unknownValidity

/-- Reads a selection for a question. -/
def Selection.ofDocument (q : Question) (d : Document) : Except Fault Selection := do
  let id ← d.required "id"
  match q.choice? id with
  | none => .error (.about [q.id, id] (.unknownOption q.id.display id.display))
  | some choice => return { choice, index := d.fieldD "index" (.int 0) }

/-- Reads an answer; `response` is the id of the response it belongs to. -/
def Answer.ofDocument (s : Survey) (response : Document) (d : Document) : Except Fault Answer := do
  let id ← d.required "question"
  match s.question? id with
  | none =>
    .error (.about [response, id] (.unknownQuestion response.display id.display))
  | some question =>
    let options ← (d.fieldD "options" (.list [])).elements
    let selections ← options.mapM (Selection.ofDocument question)
    return { question, selections, seen := d.fieldD "index_seen" (.int 0) }

/-- Reads a response to a survey. -/
def Response.ofDocument (s : Survey) (d : Document) : Except Fault Response := do
  let _ ← d.mapping
  let answers ← (← (d.fieldD "responses" (.list [])).elements).mapM
    (Answer.ofDocument s (d.fieldD "id" .null))
  let id ← d.required "id"
  let known ← Validity.ofDocument (d.fieldD "known_validity_status" (.str "maybe"))
  let computed ← Validity.ofDocument (d.fieldD "computed_validity_status" (.str "maybe"))
  return {
    id, answers, known, computed
    score := d.fieldD "score" (.float 0.0)
    threshold := d.fieldD "threshold" .null
    cluster := d.fieldD "cluster_label" .null }

/-- Writes a selection. -/
def Selection.toDocument (s : Selection) : Document :=
  .record [("id", s.choice.id), ("index", s.index)]

/-- Writes an answer. -/
def Answer.toDocument (a : Answer) : Document :=
  .record [("question", a.question.id),
    ("options", .list (a.selections.map (·.toDocument))), ("index_seen", a.seen)]

/-- Writes a response. -/
def Response.toDocument (r : Response) : Document :=
  .record [
    ("id", r.id), ("responses", .list (r.answers.map (·.toDocument))),
    ("score", r.score), ("threshold", r.threshold),
    ("known_validity_status", .str r.known.name),
    ("computed_validity_status", .str r.computed.name),
    ("cluster_label", r.cluster)]

end Questionnaire
