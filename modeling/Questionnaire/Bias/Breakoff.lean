/-
# Breakoff

Where do respondents stop? The responses are counted by how many answers they
give that count, and by the last question they were shown. A response without
such answers is left out.
-/
import Questionnaire.Document.Order
import Questionnaire.Document.Display
import Questionnaire.Response.Basic
import Questionnaire.Note
import Questionnaire.Tally

namespace Questionnaire

/-- How many responses give each number of answers. -/
def breakoffByPosition (responses : List Response) : Tally Nat :=
  Tally.ofList ((responses.map (·.counted.length)).filter (0 < ·))

/-- What counting has to say of a response that is left out. -/
def breakoffNote (r : Response) : Note :=
  ⟨.warning, s!"Response {r.id.display} has no answers; skipped in breakoff."⟩

/-- What counting has to say: the responses that are left out. -/
def breakoffNotes (responses : List Response) : List Note :=
  (responses.filter (·.counted.isEmpty)).map breakoffNote

/-- The answer that was shown last; of several, the first. -/
def latest (first : Answer) (rest : List Answer) : Except Fault Answer :=
  rest.foldlM (fun best a => do return if ← best.seen.less a.seen then a else best) first

/-- The question after which a response stops, if it has answers that count. -/
def lastQuestion? (r : Response) : Noting (Option Question) := do
  match r.counted with
  | [] =>
    makeNotes [breakoffNote r]
    return none
  | a :: rest => return some (← latest a rest).question

/-- How many responses stop after each question. -/
def breakoffByQuestion (responses : List Response) : Noting (Tally Question) := do
  return Tally.ofList ((← responses.mapM lastQuestion?).filterMap id)

end Questionnaire
