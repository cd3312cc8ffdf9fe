/-
# Reading JSON texts

The tokens are read one by one; what is still open is kept on a stack. Of
entries with the same key the last one gives the value. The first token that
does not fit is at fault, and so is a whole number that is too long.

Key definition: `Document.ofJson`.
-/
import Questionnaire.Document.Json.Token
import Questionnaire.Fault
import Questionnaire.Text.Numeral
import Questionnaire.Whole

namespace Questionnaire.Json

/-- A list or a mapping that is still open. Items stand in reverse; a mapping
has the key of the value that comes next. -/
inductive Open where
  | items (done : List Document)
  | entries (done : List (Document × Document)) (key : String)
  deriving Repr, Inhabited

/-- What may come next. -/
inductive Want where
  | value
  | valueOrClose
  | key (done : List (Document × Document))
  | keyOrClose
  | colon (done : List (Document × Document)) (key : String)
  | after (d : Document)
  deriving Repr, Inhabited

/-- What has been read: the open lists and mappings, innermost first. -/
structure Reader where
  stack : List Open := []
  want : Want := .value
  deriving Repr, Inhabited

namespace Reader

/-- The fault of a text that is not JSON. -/
def malformed {α : Type} : Except Fault α := .error .malformedJson

/-- Whether a document is a whole number with too many digits. -/
def isTooLong : Document → Bool
  | .int n => tenTo digitLimit ≤ n.natAbs
  | _ => false

/-- Reads the beginning of a value. -/
def begin (r : Reader) : Token → Except Fault Reader
  | .openList => .ok { r with stack := .items [] :: r.stack, want := .valueOrClose }
  | .openMap => .ok { r with want := .keyOrClose }
  | .text s => .ok { r with want := .after (.str s) }
  | .value d => if isTooLong d then .error .unsuitable else .ok { r with want := .after d }
  | _ => malformed

/-- Reads what comes after a value that is part of a list or a mapping. -/
def goOn (inner : Open) (outer : List Open) (d : Document) : Token → Except Fault Reader
  | .comma =>
    match inner with
    | .items done => .ok ⟨.items (d :: done) :: outer, .value⟩
    | .entries done key => .ok ⟨outer, .key (Document.put (.str key) d done)⟩
  | .closeList =>
    match inner with
    | .items done => .ok ⟨outer, .after (.list (d :: done).reverse)⟩
    | .entries .. => malformed
  | .closeMap =>
    match inner with
    | .items _ => malformed
    | .entries done key => .ok ⟨outer, .after (.map (Document.put (.str key) d done))⟩
  | _ => malformed

/-- Reads one token. -/
def step (r : Reader) (t : Token) : Except Fault Reader :=
  match r.want with
  | .value => r.begin t
  | .valueOrClose =>
    match t, r.stack with
    | .closeList, _ :: outer => .ok ⟨outer, .after (.list [])⟩
    | t, _ => r.begin t
  | .key done =>
    match t with
    | .text s => .ok { r with want := .colon done s }
    | _ => malformed
  | .keyOrClose =>
    match t with
    | .closeMap => .ok { r with want := .after (.map []) }
    | .text s => .ok { r with want := .colon [] s }
    | _ => malformed
  | .colon done key =>
    match t with
    | .colon => .ok ⟨.entries done key :: r.stack, .value⟩
    | _ => malformed
  | .after d =>
    match r.stack with
    | inner :: outer => goOn inner outer d t
    | [] => malformed

/-- The document that was read, if nothing is open. -/
def result? (r : Reader) : Option Document :=
  match r.stack, r.want with
  | [], .after d => some d
  | _, _ => none

end Reader

end Questionnaire.Json

namespace Questionnaire

/-- The document that a JSON text holds. -/
def Document.ofJson (s : String) : Except Fault Document := do
  let (tokens, complete) := Json.Token.scan s
  let r ← tokens.foldlM Json.Reader.step {}
  match r.result? with
  | some d => if complete then return d else .error .malformedJson
  | none => .error .malformedJson

end Questionnaire
