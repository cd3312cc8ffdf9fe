/-
# Settings

The settings of the checks are a record of twelve values. They come from a
document, which may name some of them, or from environment variables. Values
are kept as they are given; four of them have to lie in a range.

Key definitions: `Settings.ofDocument`, `Settings.ofNestedDocument`,
`Settings.ofEnvironment`.
-/
import Questionnaire.Document.Access
import Questionnaire.Document.Display
import Questionnaire.Text.Numeral

namespace Questionnaire

/-- A value for each name. -/
abbrev Settings := List (String × Document)

namespace Settings

/-- The names in their order, with the values they have if nothing is said. -/
def default : Settings := [
  ("bootstrap_iterations", .int 2000), ("alpha", .float 0.05), ("epsilon", .float 0.5),
  ("delta", .float 0.5), ("min_distinct_scores", .int 6), ("cluster_k", .int 2),
  ("cluster_max_iterations", .int 50), ("path_length_samples", .int 5000),
  ("order_bias_min_samples", .int 5), ("order_bias_balance", .float 0.2), ("log_every", .int 25),
  ("seed", .null)]

/-- Whether there is a setting with the name. -/
def isName (name : String) : Bool := default.any (·.1 == name)

/-- The value of a setting. -/
def value (s : Settings) (name : String) : Document := (s.lookup name).getD .null

/-- The settings that a mapping gives, and the usual values for the others. -/
def given (d : Document) : Settings :=
  default.map fun (name, usual) => (name, d.fieldD name usual)

/-- The document of all settings. -/
def toDocument (s : Settings) : Document := .record s

/-- A value must be at least one. -/
def atLeastOne (fault : Fault) (d : Document) : Except Fault Unit := do
  if (← d.number).blt 1 then .error fault

/-- A value must lie between zero and one. -/
def isFraction (fault : String → Fault) (d : Document) : Except Fault Unit := do
  let n ← d.number
  if !(Number.ble 0 n && n.ble 1) then .error (.about [d] (fault d.display))

/-- The settings, if the four values with a range lie in it. -/
def check (s : Settings) : Except Fault Settings := do
  atLeastOne .noIterations (s.value "bootstrap_iterations")
  isFraction .alphaOutside (s.value "alpha")
  isFraction .deltaOutside (s.value "delta")
  atLeastOne .noClusters (s.value "cluster_k")
  return s

/-- A document may name settings only. -/
def checkNames (names : List Document) : Except Fault Unit := do
  if !names.all (·.isKey) then .error .illTyped
  let unknown := names.filter fun
    | .str name => !isName name
    | _ => true
  if !unknown.isEmpty then
    let texts ← unknown.mapM (·.text)
    let sorted := texts.eraseDups.mergeSort fun a b => decide (a ≤ b)
    .error (.unknownSettings (", ".intercalate sorted))

/-- The settings that a document gives. One that is empty in some way gives none. -/
def ofDocument (d : Document) : Except Fault Settings :=
  if d.isGiven then do
    checkNames (← d.elements)
    match d.opened with
    | .map _ => check (given d)
    | _ => .error .illTyped
  else check default

/-- Whether a list of characters holds another one. -/
def holds (part : List Char) : List Char → Bool
  | [] => part.isEmpty
  | c :: cs => part.isPrefixOf (c :: cs) || holds part cs

/-- The settings that a document gives itself or in a mapping under the name `qc`. -/
def ofNestedDocument (d : Document) : Except Fault Settings :=
  if !d.isGiven then ofDocument d
  else match d.opened with
    | .map _ =>
      let inner := d.fieldD "qc" .null
      match inner.opened with
      | .map _ => ofDocument inner
      | _ => ofDocument d
    | .list items | .set items =>
      if items.any (· == .str "qc") then .error .illTyped else ofDocument d
    | .str s => if holds ['q', 'c'] s.toList then .error .illTyped else ofDocument d
    | _ => .error .illTyped

/-- The environment variable of a setting. -/
def variableOf (name : String) : String :=
  "SURVEYQC_" ++ String.ofList (name.toList.map Char.toUpper)

/-- The value that a text gives: a float where the usual value is one. -/
def readValue (usual : Document) (raw : String) : Except Fault Document :=
  let read := match usual with
    | .float _ => (floatOfText? raw).map Document.float
    | _ => (wholeOfText? raw).map Document.int
  match read with
  | some d => .ok d
  | none => .error .unsuitable

/-- The settings that environment variables give. A blank one gives nothing. -/
def ofEnvironment (environment : List (String × String)) : Except Fault Settings := do
  let s ← default.mapM fun (name, usual) =>
    match environment.lookup (variableOf name) with
    | none => .ok (name, usual)
    | some raw =>
      if raw.toList.all isBlank then .ok (name, usual)
      else do return (name, ← readValue usual raw)
  check s

end Settings

end Questionnaire
