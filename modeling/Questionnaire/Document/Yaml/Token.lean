/-
# The tokens of a YAML text

Beside texts and signs there are names: an anchor names what follows it and an
alias stands for what was named, a tag says what kind of value follows, and a
directive at the beginning of a document gives its version or a short handle
for tags.

Key definitions: `Token`, `anchorName`, `tagToken`, `directiveToken`.
-/
import Questionnaire.Document.Yaml.Lines
import Questionnaire.Document.Yaml.Plain
import Questionnaire.Text.Numeral

namespace Questionnaire.Yaml

/-- A token. `listStart`, `mapStart` and `blockEnd` stand where the indentation begins or ends
a list or a mapping. -/
inductive Token where
  | version (major : Nat)
  | handle (name stem : String)
  | directive
  | documentStart
  | documentEnd
  | listStart
  | mapStart
  | blockEnd
  | openList
  | closeList
  | openMap
  | closeMap
  | entry
  | comma
  | key
  | value
  | alias (name : String)
  | anchor (name : String)
  | tag (handle : Option String) (suffix : String)
  | text (s : String) (plain : Bool)
  deriving Repr, BEq, Inhabited

/-! ### Anchors and aliases -/

/-- The name of an anchor or alias. The cursor is at the sign before it. -/
def anchorName (c : Cursor) : Except Fault (String × Cursor) := do
  let (name, c) := c.next.span isNameChar
  let ends := isGapOrEnd c.peek || c.peek.any "?:,]\x7d%@\x60".toList.contains
  if name.isEmpty || !ends then malformed
  return (String.ofList name, c)

/-! ### Tags -/

/-- Whether a character may stand in a tag. -/
def isTagChar (c : Char) : Bool := isNameChar c || ";/?:@&=+$,.!~*'()[]".toList.contains c

/-- The bytes that a run of escapes gives. -/
def escapedBytes : Nat → Cursor → Except Fault (List UInt8 × Cursor)
  | 0, c => .ok ([], c)
  | fuel + 1, c => do
    if c.peek != some '%' then return ([], c)
    let digits := c.next.rest.take 2
    match hexValue? digits with
    | some n =>
      if digits.length < 2 then malformed
      let (more, c) ← escapedBytes fuel (c.forward 3)
      return (n.toUInt8 :: more, c)
    | none => malformed

/-- The characters of a tag. -/
def tagChars : Nat → Cursor → Except Fault (List Char × Cursor)
  | 0, c => .ok ([], c)
  | fuel + 1, c => do
    let (part, c) := c.span isTagChar
    if c.peek != some '%' then return (part, c)
    let (bytes, c) ← escapedBytes (c.rest.length + 1) c
    match String.fromUTF8? ⟨bytes.toArray⟩ with
    | none => malformed
    | some s =>
      let (more, c) ← tagChars fuel c
      return (part ++ s.toList ++ more, c)

/-- A tag without its handle; it is not empty. -/
def tagText (c : Cursor) : Except Fault (String × Cursor) := do
  let escaped := c.peek == some '%'
  let (cs, c) ← tagChars (c.rest.length + 1) c
  if cs.isEmpty && !escaped then malformed
  return (String.ofList cs, c)

/-- A handle: an exclamation mark, or a name between two of them. -/
def tagHandle (c : Cursor) : Except Fault (String × Cursor) := do
  if c.peek != some '!' then malformed
  if c.next.peek == some ' ' then return ("!", c.next)
  let (name, c) := c.next.span isNameChar
  if c.peek != some '!' then malformed
  return ("!" ++ String.ofList name ++ "!", c.next)

/-- A tag: `!<tag>`, `!suffix`, `!handle!suffix`, or `!` alone. -/
def tagToken (c : Cursor) : Except Fault (Token × Cursor) := do
  let (token, c) ←
    if c.peekSecond == some '<' then do
      let (suffix, c) ← tagText (c.forward 2)
      if c.peek != some '>' then malformed
      pure (Token.tag none suffix, c.next)
    else if isGapOrEnd c.peekSecond then pure (Token.tag none "!", c.next)
    else do
      let word := c.next.rest.takeWhile fun ch => !isSpaceOrEnd (some ch)
      let (handle, c) ← if word.contains '!' then tagHandle c else pure ("!", c.next)
      let (suffix, c) ← tagText c
      pure (Token.tag (some handle) suffix, c)
  if !isSpaceOrEnd c.peek then malformed
  return (token, c)

/-! ### Directives -/

/-- The number that digits write. It has no more of them than any whole number. -/
def directiveNumber (c : Cursor) : Except Fault (Nat × Cursor) := do
  let (digits, c) := c.span Char.isDigit
  if digits.isEmpty then malformed
  if digitLimit < digits.length then throw .unsuitable
  return (digitsValue digits, c)

/-- The version that a directive gives. -/
def versionToken (c : Cursor) : Except Fault (Token × Cursor) := do
  let (major, c) ← directiveNumber c.skipSpaces
  if c.peek != some '.' then malformed
  let (_, c) ← directiveNumber c.next
  if !isSpaceOrEnd c.peek then malformed
  return (.version major, c)

/-- The handle that a directive gives, with what it stands for. -/
def handleToken (c : Cursor) : Except Fault (Token × Cursor) := do
  let (name, c) ← tagHandle c.skipSpaces
  if c.peek != some ' ' then malformed
  let (stem, c) ← tagText c.skipSpaces
  if !isSpaceOrEnd c.peek then malformed
  return (.handle name stem, c)

/-- A directive, up to the end of its line. The cursor is at the percent sign. -/
def directiveToken (c : Cursor) : Except Fault (Token × Cursor) := do
  let (name, c) := c.next.span isNameChar
  if name.isEmpty || !isSpaceOrEnd c.peek then malformed
  let (token, c) ←
    match String.ofList name with
    | "YAML" => versionToken c
    | "TAG" => handleToken c
    | _ => pure (Token.directive, (c.span (!isBreak ·)).2)
  return (token, ← skipLine c)

end Questionnaire.Yaml
