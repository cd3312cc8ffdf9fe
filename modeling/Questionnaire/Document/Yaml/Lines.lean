/-
# Texts of whole lines

After `|` a text keeps its lines; after `>` they are folded, except those that
begin with a blank. The indentation is that of the first line or given by a
digit. The last line break is kept, and with `-` dropped; with `+` all breaks at
the end are kept.

Key definition: `linesText`.
-/
import Questionnaire.Document.Yaml.Quoted

namespace Questionnaire.Yaml

/-- What is said after the sign. -/
structure LinesHeader where
  /-- Whether breaks at the end are all kept or all dropped; if not said, one is kept. -/
  keepBreaks : Option Bool := none
  /-- How far the lines are indented, beyond what surrounds them. -/
  indentation : Option Nat := none
  deriving Repr

/-- Reads the sign for the breaks at the end. -/
def LinesHeader.readKeep (h : LinesHeader) (c : Cursor) : LinesHeader × Cursor :=
  match c.peek with
  | some '+' => ({ h with keepBreaks := some true }, c.next)
  | some '-' => ({ h with keepBreaks := some false }, c.next)
  | _ => (h, c)

/-- Reads the digit for the indentation, which is not zero. -/
def LinesHeader.readIndentation (h : LinesHeader) (c : Cursor) :
    Except Fault (LinesHeader × Cursor) :=
  match c.peek with
  | some d =>
    if d == '0' then malformed
    else if d.isDigit then .ok ({ h with indentation := some (d.toNat - '0'.toNat) }, c.next)
    else .ok (h, c)
  | none => .ok (h, c)

/-- Skips what remains of a line that holds nothing but a comment. -/
def skipLine (c : Cursor) : Except Fault Cursor :=
  let c := c.skipSpaces.skipComment
  if c.rest.isEmpty then .ok c
  else match c.lineBreak? with
    | some (_, c) => .ok c
    | none => malformed

/-- Reads what is said after the sign, up to the end of the line. -/
def linesHeader (c : Cursor) : Except Fault (LinesHeader × Cursor) := do
  let (h, afterKeep) := LinesHeader.readKeep {} c
  let (h, c) ← h.readIndentation afterKeep
  let (h, c) := if h.keepBreaks.isSome then (h, c) else h.readKeep c
  if !isSpaceOrEnd c.peek then malformed
  return (h, ← skipLine c)

/-- The breaks of the empty lines before the first line, and the largest column of a space
among them. -/
def leadingBreaks : Nat → (column : Nat) → Cursor → List Char × Nat × Cursor
  | 0, column, c => ([], column, c)
  | fuel + 1, column, c =>
    let c := c.skipSpaces
    let column := max column c.column
    match c.lineBreak? with
    | none => ([], column, c)
    | some (b, c) =>
      let (more, column, c) := leadingBreaks fuel column c
      (b :: more, column, c)

/-- The breaks of empty lines, and the cursor at the indentation of the next one. -/
def breaksAt (indent : Nat) : Nat → Cursor → List Char × Cursor
  | 0, c => ([], c)
  | fuel + 1, c =>
    let c := c.skipSpacesTo indent
    match c.lineBreak? with
    | none => ([], c)
    | some (b, c) =>
      let (more, c) := breaksAt indent fuel c
      (b :: more, c)

/-- What stands between two lines of a text. -/
def between (fold : Bool) (first : Option Char) (startsBlank nextBlank : Bool)
    (more : List Char) : List Char :=
  if fold && first == some '\n' && !startsBlank && !nextBlank then
    if more.isEmpty then [' '] else more
  else first.toList ++ more

/-- The lines from the cursor on, with the breaks at the end that are kept. -/
def linesFrom (fold : Bool) (keep : Option Bool) (indent : Nat) :
    Nat → Cursor → List Char × Cursor
  | 0, c => ([], c)
  | fuel + 1, c =>
    let isBlankHere (c : Cursor) := c.peek.any isSpaceOrTab
    let startsBlank := isBlankHere c
    let (line, c) := c.span (!isBreak ·)
    let (first, c) := match c.lineBreak? with
      | some (b, c) => (some b, c)
      | none => (none, c)
    let (more, c) := breaksAt indent (c.rest.length + 1) c
    if c.column == indent && !c.rest.isEmpty then
      let (text, last) := linesFrom fold keep indent fuel c
      (line ++ between fold first startsBlank (isBlankHere c) more ++ text, last)
    else
      match keep with
      | none => (line ++ first.toList, c)
      | some false => (line, c)
      | some true => (line ++ first.toList ++ more, c)

/-- A text of whole lines, and the cursor after it. The cursor is at the sign; the lines have
at least the indentation. -/
def linesText (fold : Bool) (indent : Nat) (c : Cursor) : Except Fault (String × Cursor) := do
  let (h, c) ← linesHeader c.next
  let least := max 1 indent
  let (before, indent, c) :=
    match h.indentation with
    | none =>
      let (breaks, column, c) := leadingBreaks (c.rest.length + 1) 0 c
      (breaks, max least column, c)
    | some n =>
      let indent := least + n - 1
      let (breaks, c) := breaksAt indent (c.rest.length + 1) c
      (breaks, indent, c)
  if c.column == indent && !c.rest.isEmpty then
    let (text, c) := linesFrom fold h.keepBreaks indent c.rest.length c
    return (String.ofList (before ++ text), c)
  else return (String.ofList (if h.keepBreaks == some true then before else []), c)

end Questionnaire.Yaml
