/-
# Texts in quotes

Between single quotes only the quote itself is special: it is written twice.
Between double quotes a backslash begins an escape. In both, a line break
becomes a space, of more breaks one is dropped, and blanks around them do not
count.

Key definition: `quotedText`.
-/
import Questionnaire.Document.Yaml.Cursor
import Questionnaire.Text.Digit
import Questionnaire.Fault

namespace Questionnaire.Yaml

/-- The fault of a text that is not YAML. -/
def malformed {α : Type} : Except Fault α := .error .malformedYaml

/-- The line breaks that stand here with blanks around them. -/
def breaks : Nat → Cursor → Except Fault (List Char × Cursor)
  | 0, _ => malformed
  | fuel + 1, c =>
    if c.separates then malformed
    else
      let c := (c.span isSpaceOrTab).2
      match c.lineBreak? with
      | none => .ok ([], c)
      | some (b, c) => do
        let (more, c) ← breaks fuel c
        return (b :: more, c)

/-- What stands for a gap between quotes. -/
def quotedGap (c : Cursor) : Except Fault (List Char × Cursor) := do
  let (blanks, c) := c.span isSpaceOrTab
  match c.lineBreak? with
  | none => return (blanks, c)
  | some (b, c) =>
    let (more, c) ← breaks (c.rest.length + 1) c
    return (Cursor.folded b more, c)

/-- What a character after a backslash stands for. -/
def escape? : Char → Option Char
  | '0' => some '\x00'
  | 'a' => some '\x07'
  | 'b' => some '\x08'
  | 't' | '\t' => some '\t'
  | 'n' => some '\n'
  | 'v' => some '\x0b'
  | 'f' => some '\x0c'
  | 'r' => some '\r'
  | 'e' => some '\x1b'
  | ' ' => some ' '
  | '"' => some '"'
  | '\\' => some '\\'
  | '/' => some '/'
  | 'N' => some '\x85'
  | '_' => some '\xa0'
  | 'L' => some '\u2028'
  | 'P' => some '\u2029'
  | _ => none

/-- How many digits follow a letter that names a character by its number. -/
def escapeDigits? : Char → Option Nat
  | 'x' => some 2
  | 'u' => some 4
  | 'U' => some 8
  | _ => none

/-- The character with a number, which must not be too large. Half of a character is
replaced. -/
def numbered (n : Nat) : Except Fault Char :=
  if 0x80000000 ≤ n then .error .tooLarge
  else if 0x10FFFF < n then .error .unsuitable
  else if 0xD800 ≤ n ∧ n < 0xE000 then .ok '\ufffd' else .ok (Char.ofNat n)

/-- What an escape stands for; the cursor is after the backslash. -/
def escape (c : Cursor) : Except Fault (List Char × Cursor) :=
  match c.peek with
  | none => malformed
  | some letter =>
    match escape? letter, escapeDigits? letter with
    | some ch, _ => .ok ([ch], c.next)
    | none, some n => do
      let digits := c.next.rest.take n
      match hexValue? digits with
      | some value =>
        if digits.length < n then malformed
        else return ([← numbered value], c.next.forward n)
      | none => malformed
    | none, none =>
      match c.lineBreak? with
      | some (_, c) => breaks (c.rest.length + 1) c
      | none => malformed

/-- The characters up to the closing quote. -/
def quotedRest (double : Bool) : Nat → Cursor → Except Fault (List Char × Cursor)
  | 0, _ => malformed
  | fuel + 1, c => do
    let quote := if double then '"' else '\''
    match c.peek with
    | none => malformed
    | some ch =>
      if ch == quote && !(!double && c.peekSecond == some quote) then return ([], c.next)
      let (part, c) ←
        if ch == quote then pure ([quote], c.forward 2)
        else if double && ch == '\\' then escape c.next
        else if isGapOrEnd (some ch) then quotedGap c
        else pure ([ch], c.next)
      let (text, c) ← quotedRest double fuel c
      return (part ++ text, c)

/-- A text in quotes, and the cursor after it. The cursor is at the opening quote. -/
def quotedText (double : Bool) (c : Cursor) : Except Fault (String × Cursor) := do
  let (text, c) ← quotedRest double c.rest.length c.next
  return (String.ofList text, c)

end Questionnaire.Yaml
