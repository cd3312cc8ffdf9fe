/-
# Classifying responses

A policy decides which responses of a batch were answered with attention. It
leaves its marks on the responses and gives a verdict on each. A batch is a
session together with the responses; a policy that fails keeps the marks it
has made.

Key definitions: `Policy`, `Verdict`, `Batch`, `InBatch`.
-/
import Questionnaire.Session

namespace Questionnaire

/-- What a decision about a response rests on. -/
inductive Policy where
  /-- A low entropy of the selections. -/
  | entropy
  /-- A high likelihood of the selections. -/
  | likelihood
  /-- Few choices that others rarely select. -/
  | rareChoices
  /-- The known validity of similar responses. -/
  | clusters
  /-- Rare choices, with clusters for further use. -/
  | stacked
  /-- Nothing: all responses are taken. -/
  | all
  deriving DecidableEq, Repr, Inhabited

namespace Policy

/-- The name of a policy in documents. -/
def name : Policy → String
  | entropy => "entropy"
  | likelihood => "log_likelihood"
  | rareChoices => "lpo"
  | clusters => "cluster"
  | stacked => "stacked"
  | all => "all"

/-- The policy with the name. -/
def ofName? : String → Option Policy
  | "entropy" => some entropy
  | "log_likelihood" => some likelihood
  | "lpo" => some rareChoices
  | "cluster" => some clusters
  | "stacked" => some stacked
  | "all" => some all
  | _ => none

@[simp] theorem ofName?_name (p : Policy) : ofName? p.name = some p := by cases p <;> rfl

/-- The name of a policy in notes on progress. -/
def title (p : Policy) : String := String.ofList (p.name.toList.map Char.toUpper)

/-- The name under which a session notes what it does for a policy. -/
def label (p : Policy) : String := "Classifier." ++ p.title

end Policy

/-- A decision about a response. -/
structure Verdict where
  responseId : Document
  policy : Policy
  /-- How many answers count. -/
  answered : Nat
  score : Document
  threshold : Document
  valid : Bool
  deriving Repr, Inhabited

/-- The decision that the marks of a response show. -/
def Response.verdict (policy : Policy) (valid : Bool) (r : Response) : Verdict :=
  ⟨r.id, policy, r.counted.length, r.score, r.threshold, valid⟩

/-- Whether a response is not marked as invalid. -/
def Response.taken (r : Response) : Bool := r.computed != .no

/-- A session with the responses to classify. -/
structure Batch where
  session : Session
  responses : List Response
  deriving Repr, Inhabited

/-- A computation on a batch, which may fail. -/
abbrev InBatch (α : Type) := ExceptT Fault (StateM Batch) α

namespace Batch

/-- Runs a computation on a batch. -/
def run {α : Type} (b : Batch) (c : InBatch α) : Except Fault α × Batch :=
  StateT.run (ExceptT.run c) b

/-- A computation in the batch's session. -/
def inSession {α : Type} (c : InSession α) : InBatch α := ExceptT.mk do
  let b ← get
  let (result, session) := b.session.run c
  set { b with session }
  return result

/-- A result as a computation. -/
def lift {α : Type} (r : Except Fault α) : InBatch α := ExceptT.mk (return r)

/-- Changes the marks of the response at a place. -/
def mark (i : Nat) (change : Response → Response) : InBatch Unit :=
  modify fun b => { b with responses := b.responses.modify i change }

end Batch

end Questionnaire
