/-
# Responses

A response is the record of one respondent's answers in the order in which they
were given, together with the marks that classifying it leaves: a score, a
threshold, a validity and a cluster.

Key definitions: `Answer`, `Response`, `Response.point`.
-/
import Questionnaire.Survey.Index

namespace Questionnaire

/-- Whether a response is taken to be honest. -/
inductive Validity where
  | yes
  | no
  | maybe
  deriving DecidableEq, Repr, Inhabited

/-- The name of a validity in documents. -/
def Validity.name : Validity → String
  | .yes => "yes"
  | .no => "no"
  | .maybe => "maybe"

/-- The validity with the name. -/
def Validity.ofName? : String → Option Validity
  | "yes" => some .yes
  | "no" => some .no
  | "maybe" => some .maybe
  | _ => none

@[simp] theorem Validity.ofName?_name (v : Validity) : ofName? v.name = some v := by
  cases v <;> rfl

/-- A choice together with the place at which it was shown. -/
structure Selection where
  choice : Choice
  index : Document
  deriving Repr, Inhabited

/-- What a respondent selected for one question, and how many answers came before. -/
structure Answer where
  question : Question
  selections : List Selection := []
  seen : Document := .int 0
  deriving Repr, Inhabited

/-- The answers of one respondent and the marks left on them. What a response's document gives
is kept as it is, so a score is a number most of the time. -/
structure Response where
  id : Document
  answers : List Answer := []
  score : Document := .float 0.0
  threshold : Document := .null
  known : Validity := .maybe
  computed : Validity := .maybe
  cluster : Document := .null
  deriving Repr, Inhabited

namespace Answer

/-- The selected choices. -/
def choices (a : Answer) : List Choice := a.selections.map (·.choice)

/-- The ids of the selected choices. -/
def choiceIds (a : Answer) : List Document := a.selections.map (·.choice.id)

/-- The first selected choice. -/
def first? (a : Answer) : Option Choice := a.selections.head?.map (·.choice)

/-- The selected choice of a question that takes one. -/
def single (a : Answer) : Except Fault Choice :=
  if !a.question.isExclusive then .error .singleFromMany
  else match a.first? with
    | some c => .ok c
    | none => .error (.about [a.question.id] (.nothingSelected a.question.id.display))

/-- The selected choices of a question that takes several. -/
def many (a : Answer) : Except Fault (List Choice) :=
  if a.question.isExclusive then .error .manyFromSingle else .ok a.choices

end Answer

namespace Response

/-- The answers that take part in the statistics. -/
def counted (r : Response) : List Answer := r.answers.filter (!·.question.isCustom)

/-- The answer to a question. -/
def answerTo? (r : Response) (q : Question) : Option Answer :=
  r.answers.find? (·.question.key == q.key)

/-- The choice that is the first one selected for a question. -/
def firstChoice? (r : Response) (q : Question) : Option Choice := (r.answerTo? q).bind (·.first?)

/-- Whether one of some choices is among those selected. A selected choice that cannot be looked
up is at fault, unless one before it is found. -/
def findsAny (choices : List Choice) : List Choice → Except Fault Bool
  | [] => .ok false
  | c :: selected =>
    if !c.isKey then .error .illTyped
    else if choices.contains c then .ok true
    else findsAny choices selected

/-- Whether one of the choices, which must be fit to be looked up, was selected for a question
that counts. -/
def selectsAny (r : Response) (choices : List Choice) : Except Fault Bool :=
  if choices.all (·.isKey) then findsAny choices (r.counted.flatMap (·.choices))
  else .error .illTyped

/-- The questions that were answered, each once. -/
def questionSet (r : Response) : List Question :=
  r.answers.foldl (fun qs a =>
    if qs.any (·.key == a.question.key) then qs else qs ++ [a.question]) []

/-- The coordinate of a response for one question: the rank of the first
selected choice, and zero if there is none. -/
def coordinate (r : Response) (q : Question) : Except Fault Nat :=
  match r.firstChoice? q with
  | none => .ok 0
  | some c =>
    match q.rank? c with
    | some rank => .ok rank
    | none => .error .unsuitable

/-- The response as a point: one coordinate for each question that counts. -/
def point (r : Response) (s : Survey) : Except Fault (List Nat) :=
  (s.questions.filter (!·.isCustom)).mapM r.coordinate

end Response

end Questionnaire
