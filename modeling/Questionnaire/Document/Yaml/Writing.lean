/-
# Writing YAML texts

Lists and mappings are written without brackets unless they are empty. The
entries of a mapping stand one below the other by rising keys, those of a
mapping inside it two columns further; a list under a key is not indented. A
key that is empty, has several lines or is long comes after a question mark. A
label stands before the part that it names.

Key definitions: `Sheet.text`, `Document.toYaml`.
-/
import Questionnaire.Document.Display
import Questionnaire.Document.Yaml.Scalar
import Questionnaire.Document.Yaml.Sheet

namespace Questionnaire

namespace Yaml

/-- The text of a value that is no list or mapping, and its style. -/
def scalarOf : Document → TextStyle × String
  | .null => (.plain, "null")
  | .bool b => (.plain, if b then "true" else "false")
  | .int n => (.plain, toString n)
  | .float x => (.plain, FloatStyle.yaml.write x)
  | .nan _ => (.plain, FloatStyle.yaml.notANumber)
  | .str s => (.ofText s, s)
  | .bytes bs => (.double, quotedBytes bs)
  | .day d => (.plain, d.text)
  | .moment m => (.plain, m.text)
  | .list _ | .set _ | .pair .. => (.plain, "[]")
  | .map _ => (.plain, "\x7b\x7d")
  | .knot .. | .link .. => (.plain, "null")

/-- A value that is no list or mapping. -/
def writeScalar (p : Placement) (d : Document) : String :=
  let (style, s) := scalarOf d
  writeIn p style s.toList

/-- The length of the short form of the tag that a key has. -/
def tagLength : Document → Nat
  | .bool _ | .null => 6
  | .float _ | .nan _ => 7
  | _ => 5

/-- The least length of key and tag together at which a key comes after a question mark. -/
def longKey : Nat := 128

/-- Whether a character makes a text one of several lines. -/
def breaksLine (c : Char) : Bool := isBreak c && c != '\r'

/-- Whether a key is written before its colon, without a question mark. -/
def isSimpleKey (k : Document) : Bool :=
  let (_, s) := scalarOf k
  s.length + tagLength k < longKey && !s.isEmpty && !s.toList.any breaksLine

/-- A line's indentation. -/
def indentation (n : Nat) : String := String.ofList (List.replicate n ' ')

/-- What stands before an item or entry of a block at a column. The first one may go on in
the line that it is on. -/
def lead (sameLine : Bool) (column : Nat) : String :=
  if sameLine then " " else "\n" ++ indentation column

/-- Items or entries of a block one below the other. -/
def stack (sameLine : Bool) (column : Nat) : List String → String
  | [] => ""
  | first :: rest =>
    lead sameLine column ++ first ++
      String.join (rest.map fun s => "\n" ++ indentation column ++ s)

/-- A key with the sign after it, at a column. -/
def writeKey (column : Nat) (k : Document) : String :=
  if isSimpleKey k then writeScalar ⟨column, column + 2, false⟩ k ++ ":"
  else "? " ++ writeScalar ⟨column + 2, column + 2, true⟩ k ++ "\n" ++ indentation column ++ ":"

/-- The column after a key and its sign. -/
def columnAfterKey (column : Nat) (k : Document) : Nat :=
  if isSimpleKey k then column + (writeScalar ⟨column, column + 2, false⟩ k).length + 1
  else column + 1

/-- The name of a label. -/
def labelName (number : Nat) : String :=
  let digits := toString number
  "id" ++ String.ofList (List.replicate (3 - digits.length) '0') ++ digits

mutual

/-- A value after the sign of an item or entry. The sign ends at a column and belongs to a
block at the column `outer`. After a simple key or a label (`onNextLine`) a block begins in
the next line. -/
def writeValue (onNextLine : Bool) (outer column : Nat) : Sheet Label → String
  | .list (s :: rest) =>
    let inner := if onNextLine then outer else outer + 2
    stack (!onNextLine) inner (writeItems inner (s :: rest))
  | .map (e :: rest) => stack (!onNextLine) (outer + 2) (writeEntries (outer + 2) (e :: rest))
  | .mark (.first number) content =>
    let name := " &" ++ labelName number
    name ++ writeValue true outer (column + name.length) content
  | .mark (.again number) _ => " *" ++ labelName number
  | .value d => " " ++ writeScalar ⟨column + 1, outer + 2, true⟩ d
  | .list [] => " " ++ writeScalar ⟨column + 1, outer + 2, true⟩ (.list [])
  | .map [] => " " ++ writeScalar ⟨column + 1, outer + 2, true⟩ (.map [])

/-- The items of a list at a column. -/
def writeItems (column : Nat) : List (Sheet Label) → List String
  | [] => []
  | s :: rest => ("-" ++ writeValue false column (column + 1) s) :: writeItems column rest

/-- The entries of a mapping at a column. -/
def writeEntries (column : Nat) : List (Document × Sheet Label) → List String
  | [] => []
  | (k, s) :: rest =>
    (writeKey column k ++ writeValue (isSimpleKey k) column (columnAfterKey column k) s) ::
      writeEntries column rest

end

/-- The text of a sheet. -/
def Sheet.text : Sheet Label → String
  | .list (s :: rest) => "\n".intercalate (writeItems 0 (s :: rest)) ++ "\n"
  | .map (e :: rest) => "\n".intercalate (writeEntries 0 (e :: rest)) ++ "\n"
  | .mark _ content => content.text
  | .value d => writeScalar ⟨0, 2, true⟩ d ++ "\n"
  | .list [] => writeScalar ⟨0, 2, true⟩ (.list []) ++ "\n"
  | .map [] => writeScalar ⟨0, 2, true⟩ (.map []) ++ "\n"

end Yaml

/-- A document as a YAML text. -/
def Document.toYaml (d : Document) : String := (Yaml.Sheet.ofDocument d).sorted.text

end Questionnaire
