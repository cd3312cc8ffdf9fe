/-
# Plain texts

A plain text has no quotes. It ends before a colon or a comment that a gap sets
apart, before the signs of a list or mapping in brackets, and where a line is
not indented enough. It may go over several lines: a line break becomes a space
and of more breaks one is dropped.

Key definition: `plainText`.
-/
import Questionnaire.Document.Yaml.Cursor

namespace Questionnaire.Yaml

/-- Whether a character is a bracket or comma. -/
def isFlowSign (c : Char) : Bool := c == ',' || c == '[' || c == ']' || c == '\x7b' || c == '\x7d'

/-- The characters of one word. -/
def plainWord (inFlow : Bool) : List Char → List Char
  | [] => []
  | c :: rest =>
    let ends :=
      isGapOrEnd (some c) ||
      (c == ':' && (isGapOrEnd rest.head? || (inFlow && rest.head?.any isFlowSign))) ||
      (inFlow && (isFlowSign c || c == '?'))
    if ends then [] else c :: plainWord inFlow rest

/-- The breaks of empty lines, and the cursor before the next word. There are none if a mark
between documents comes first. -/
def emptyLines : Nat → Cursor → Option (List Char) × Cursor
  | 0, c => (none, c)
  | fuel + 1, c =>
    let c := c.skipSpaces
    match c.lineBreak? with
    | none => (some [], c)
    | some (b, c) =>
      if c.separates then (none, c)
      else
        let (more, c) := emptyLines fuel c
        (more.map (b :: ·), c)

/-- What stands for the gap before the next word, whether it goes over a line's end, and the
cursor after it. -/
def plainGap (c : Cursor) : List Char × Bool × Cursor :=
  let (spaces, c) := c.span (· == ' ')
  match c.lineBreak? with
  | none => (spaces, false, c)
  | some (b, c) =>
    if c.separates then ([], true, c)
    else
      let (more, c) := emptyLines (c.rest.length + 1) c
      (more.elim [] (Cursor.folded b), true, c)

/-- The words that follow a gap. -/
def plainWords (inFlow : Bool) (indent : Nat) :
    Nat → (gap : List Char) → (crossed : Bool) → Cursor → List Char × Bool × Cursor
  | 0, _, crossed, c => ([], crossed, c)
  | fuel + 1, gap, crossed, c =>
    match plainWord inFlow c.rest with
    | [] => ([], crossed, c)
    | word =>
      let (next, crossed, c) := plainGap (c.forward word.length)
      if next.isEmpty || c.peek == some '#' || (!inFlow && c.column < indent) then
        (gap ++ word, crossed, c)
      else
        let (text, crossed, c) := plainWords inFlow indent fuel next crossed c
        (gap ++ word ++ text, crossed, c)

/-- A plain text whose lines have at least the indentation, whether a line's end follows it,
and the cursor after it. -/
def plainText (inFlow : Bool) (indent : Nat) (c : Cursor) : String × Bool × Cursor :=
  let (text, crossed, c) := plainWords inFlow indent c.rest.length [] false c
  (String.ofList text, crossed, c)

/-- Whether a plain text may begin here. -/
def beginsPlain (inFlow : Bool) (c : Cursor) : Bool :=
  match c.rest with
  | [] => false
  | first :: rest =>
    let indicator := isFlowSign first ||
      "-?:#&*!|>'\"%@\x60".toList.contains first || isGapOrEnd (some first)
    !indicator || (!isGapOrEnd rest.head? &&
      (first == '-' || (!inFlow && (first == '?' || first == ':'))))

end Questionnaire.Yaml
