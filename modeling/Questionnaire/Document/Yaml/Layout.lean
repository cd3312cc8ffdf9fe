/-
# From layout to tokens

The tokens of a text are found from left to right. Lists and mappings without
brackets begin where a line is indented further and end where one is indented
less. Whether a text is the key of a mapping is only seen at the colon after
it, so the place where a key may have begun is kept, one for each level of
brackets: a key stands on one line and has at most 1024 characters.

Key definitions: `Layout`, `Layout.step`, `Token.scan`.
-/
import Questionnaire.Document.Yaml.Token

namespace Questionnaire.Yaml

/-- Where a key may have begun: after so many tokens. A key is required if it stands where the
entries of a mapping begin. -/
structure KeyPlace where
  before : Nat
  required : Bool
  start : Cursor
  deriving Repr

/-- What was found so far. -/
structure Layout where
  /-- What remains of the text. -/
  cursor : Cursor
  /-- The tokens found, the last one first. -/
  tokens : List Token := []
  /-- How many tokens were found. -/
  found : Nat := 0
  /-- The columns of the lists and mappings without brackets that are open, innermost first. -/
  indents : List Nat := []
  /-- Whether a key may begin here. -/
  keyAllowed : Bool := true
  /-- Where a key may have begun inside the innermost brackets. -/
  keyPlace : Option KeyPlace := none
  /-- The same for each bracket around them. -/
  outerPlaces : List (Option KeyPlace) := []
  deriving Repr

namespace Layout

/-- Whether a bracket is open. -/
def inFlow (l : Layout) : Bool := !l.outerPlaces.isEmpty

/-- The least indentation of what belongs to the innermost list or mapping. -/
def inner (l : Layout) : Nat := l.indents.head?.elim 0 (· + 1)

/-- The layout with one more token. -/
def add (l : Layout) (t : Token) : Layout :=
  { l with tokens := t :: l.tokens, found := l.found + 1 }

/-- The layout with one more token, after the first `n` ones. -/
def addAfter (l : Layout) (n : Nat) (t : Token) : Layout :=
  let later := l.found - n
  { l with tokens := l.tokens.take later ++ t :: l.tokens.drop later, found := l.found + 1 }

/-- Ends the lists and mappings that are indented further than a column. Those that begin
at column zero end only with the document. -/
def unwindTo (column : Option Nat) (l : Layout) : Layout :=
  if l.inFlow then l
  else
    let isInside (i : Nat) := column.all (· < i)
    let closed := (l.indents.takeWhile isInside).length
    { l with
      tokens := List.replicate closed .blockEnd ++ l.tokens
      found := l.found + closed
      indents := l.indents.drop closed }

/-- Opens a list or mapping at a column, unless the innermost one is there. Its token goes
after the first `n` ones. -/
def openAt (column : Nat) (n : Nat) (t : Token) (l : Layout) : Layout :=
  if l.inner ≤ column then { l.addAfter n t with indents := column :: l.indents } else l

/-- Whether a key that may have begun at a place can no longer be one. -/
def isStale (c : Cursor) (k : KeyPlace) : Bool :=
  k.start.line != c.line || 1024 < c.index - k.start.index

/-- Gives up a place where a key may have begun, unless the key is required. -/
def giveUp : Option KeyPlace → Except Fault (Option KeyPlace)
  | some k => if k.required then malformed else .ok none
  | none => .ok none

/-- Gives up the places that are too far back. -/
def giveUpStale (l : Layout) : Except Fault Layout := do
  let keep (place : Option KeyPlace) : Except Fault (Option KeyPlace) :=
    if place.any (isStale l.cursor) then giveUp place else .ok place
  return { l with keyPlace := ← keep l.keyPlace, outerPlaces := ← l.outerPlaces.mapM keep }

/-- Gives up the place inside the innermost brackets. -/
def giveUpKey (l : Layout) : Except Fault Layout := do
  return { l with keyPlace := ← giveUp l.keyPlace }

/-- Notes that a key may begin here. -/
def noteKey (l : Layout) : Except Fault Layout := do
  if !l.keyAllowed then return l
  let l ← l.giveUpKey
  let required := !l.inFlow && l.indents.head? == some l.cursor.column
  return { l with keyPlace := some ⟨l.found, required, l.cursor⟩ }

/-- Skips what stands between tokens. A new line may begin with a key. -/
def skipGaps (l : Layout) : Layout :=
  let c := l.cursor.skipSpaces.skipComment
  match _h : c.lineBreak? with
  | none => { l with cursor := c }
  | some (_, c) => skipGaps { l with cursor := c, keyAllowed := l.keyAllowed || !l.inFlow }
termination_by l.cursor.rest.length
decreasing_by
  exact Nat.lt_of_lt_of_le (Cursor.length_lineBreak _h)
    (Nat.le_trans (Cursor.length_skipComment _) (Cursor.length_skipSpaces _))

/-! ### The kinds of tokens -/

/-- A token of one or more characters after which no key may begin on the line. -/
def markDocument (l : Layout) (t : Token) : Except Fault Layout := do
  let l ← (l.unwindTo none).giveUpKey
  return { l.add t with keyAllowed := false, cursor := l.cursor.forward 3 }

/-- A directive. -/
def readDirective (l : Layout) : Except Fault Layout := do
  let l ← (l.unwindTo none).giveUpKey
  let (t, c) ← directiveToken l.cursor
  return { l.add t with keyAllowed := false, cursor := c }

/-- An opening bracket. -/
def openBracket (l : Layout) (t : Token) : Except Fault Layout := do
  let l ← l.noteKey
  return { l.add t with
    keyAllowed := true, cursor := l.cursor.next
    keyPlace := none, outerPlaces := l.keyPlace :: l.outerPlaces }

/-- A closing bracket. -/
def closeBracket (l : Layout) (t : Token) : Except Fault Layout := do
  let l ← l.giveUpKey
  match l.outerPlaces with
  | [] => malformed
  | place :: outer =>
    return { l.add t with
      keyAllowed := false, cursor := l.cursor.next, keyPlace := place, outerPlaces := outer }

/-- A comma. -/
def readComma (l : Layout) : Except Fault Layout := do
  let l ← l.giveUpKey
  return { l.add .comma with keyAllowed := true, cursor := l.cursor.next }

/-- Opens a list or mapping here, which must be where a key may begin. -/
def openHere (l : Layout) (t : Token) : Except Fault Layout :=
  if l.inFlow then .ok l
  else if l.keyAllowed then .ok (l.openAt l.cursor.column l.found t)
  else malformed

/-- The sign before an item of a list. -/
def readEntry (l : Layout) : Except Fault Layout := do
  let l ← (← l.openHere .listStart).giveUpKey
  return { l.add .entry with keyAllowed := true, cursor := l.cursor.next }

/-- The sign before a key. -/
def readKey (l : Layout) : Except Fault Layout := do
  let l ← (← l.openHere .mapStart).giveUpKey
  return { l.add .key with keyAllowed := !l.inFlow, cursor := l.cursor.next }

/-- The sign before a value. If a key may have begun, it has. -/
def readValue (l : Layout) : Except Fault Layout := do
  match l.keyPlace with
  | some k =>
    let l := l.addAfter k.before .key
    let l := if l.inFlow then l else l.openAt k.start.column k.before .mapStart
    return { l.add .value with keyAllowed := false, keyPlace := none, cursor := l.cursor.next }
  | none =>
    let l ← l.openHere .mapStart
    return { l.add .value with keyAllowed := !l.inFlow, cursor := l.cursor.next }

/-- A token with which a key may begin. -/
def readName (l : Layout) (read : Cursor → Except Fault (Token × Cursor)) :
    Except Fault Layout := do
  let l ← l.noteKey
  let (t, c) ← read l.cursor
  return { l.add t with keyAllowed := false, cursor := c }

/-- An alias or anchor. -/
def readAnchor (l : Layout) (token : String → Token) : Except Fault Layout :=
  l.readName fun c => do
    let (name, c) ← anchorName c
    return (token name, c)

/-- A text in quotes. -/
def readQuoted (l : Layout) (double : Bool) : Except Fault Layout :=
  l.readName fun c => do
    let (s, c) ← quotedText double c
    return (.text s false, c)

/-- A text of whole lines. -/
def readLines (l : Layout) (fold : Bool) : Except Fault Layout := do
  let l ← l.giveUpKey
  let (s, c) ← linesText fold l.inner l.cursor
  return { l.add (.text s false) with keyAllowed := true, cursor := c }

/-- A plain text. -/
def readPlain (l : Layout) : Except Fault Layout := do
  let l ← l.noteKey
  let (s, crossed, c) := plainText l.inFlow l.inner l.cursor
  return { l.add (.text s true) with keyAllowed := crossed, cursor := c }

/-- Reads the token that begins with a character, which is at the cursor. -/
def readToken (l : Layout) (first : Char) : Except Fault Layout :=
  let c := l.cursor
  let apart := isGapOrEnd c.peekSecond
  if first == '%' && c.column == 0 then l.readDirective
  else if c.column == 0 && c.beginsDocument then l.markDocument .documentStart
  else if c.column == 0 && c.endsDocument then l.markDocument .documentEnd
  else match first with
    | '[' => l.openBracket .openList
    | '\x7b' => l.openBracket .openMap
    | ']' => l.closeBracket .closeList
    | '\x7d' => l.closeBracket .closeMap
    | ',' => l.readComma
    | '*' => l.readAnchor .alias
    | '&' => l.readAnchor .anchor
    | '!' => l.readName tagToken
    | '\'' => l.readQuoted false
    | '"' => l.readQuoted true
    | first =>
      if first == '-' && apart then l.readEntry
      else if first == '?' && (l.inFlow || apart) then l.readKey
      else if first == ':' && (l.inFlow || apart) then l.readValue
      else if first == '|' && !l.inFlow then l.readLines false
      else if first == '>' && !l.inFlow then l.readLines true
      else if beginsPlain l.inFlow c then l.readPlain
      else malformed

/-- Reads the next token and the ends of lists and mappings before it. -/
def step (l : Layout) : Except Fault Layout := do
  let l ← l.skipGaps.giveUpStale
  let l := l.unwindTo (some l.cursor.column)
  match l.cursor.peek with
  | none => return { ← (l.unwindTo none).giveUpKey with keyPlace := none }
  | some first => l.readToken first

/-- How many of the tokens found are settled: those after the first place where a key may have
begun are not, as another token may still come before them. -/
def settled (l : Layout) : Nat :=
  (l.keyPlace :: l.outerPlaces).foldl (fun n place => match place with
    | some k => if isStale l.cursor k then n else min n k.before
    | none => n) l.found

/-- Reads all tokens, or those that are settled before the first fault; `fuel` bounds their
number. -/
def readAll : Nat → Layout → List Token × Option Fault
  | 0, l => (l.tokens.reverse, some .malformedYaml)
  | fuel + 1, l =>
    match l.step with
    | .error fault => ((l.tokens.drop (l.found - l.settled)).reverse, some fault)
    | .ok next =>
      if next.cursor.rest.isEmpty && l.cursor.rest.isEmpty then (next.tokens.reverse, none)
      else readAll fuel next

end Layout

/-- The tokens of a text, and what is wrong with the text after them. Every token takes a
character, so the text's length bounds their number. -/
def Token.scan (s : String) : List Token × Option Fault :=
  let cs := s.toList
  if cs.all isAllowed then
    let cs := if cs.head? == some '\ufeff' then cs.tail else cs
    Layout.readAll (cs.length + 2) { cursor := { rest := cs } }
  else ([], some .malformedYaml)

end Questionnaire.Yaml
