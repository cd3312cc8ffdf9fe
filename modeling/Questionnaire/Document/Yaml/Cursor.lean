/-
# A place in a YAML text

A cursor is what remains of a text together with where it stands. Indentation
decides what belongs together in a YAML text, so a cursor knows its column.

Key definitions: `Cursor.next`, `Cursor.lineBreak?`, `Cursor.separates`.
-/

namespace Questionnaire.Yaml

/-- What remains of a text, how many characters came before it, and its line and
column. -/
structure Cursor where
  rest : List Char
  index : Nat := 0
  line : Nat := 0
  column : Nat := 0
  deriving Repr, Inhabited

/-- Whether a character breaks a line. -/
def isBreak (c : Char) : Bool :=
  c == '\n' || c == '\r' || c == '\x85' || c == '\u2028' || c == '\u2029'

/-- Whether a character is a space or a tab. -/
def isSpaceOrTab (c : Char) : Bool := c == ' ' || c == '\t'

/-- Whether a line ends here. -/
def endsLine : Option Char → Bool
  | none => true
  | some c => isBreak c

/-- Whether a line ends or a space stands here. -/
def isSpaceOrEnd : Option Char → Bool
  | some ' ' => true
  | c => endsLine c

/-- Whether a line ends or a space or tab stands here. -/
def isGapOrEnd : Option Char → Bool
  | some '\t' => true
  | c => isSpaceOrEnd c

/-- Whether a YAML text may hold the character. -/
def isAllowed (c : Char) : Bool :=
  let n := c.toNat
  n == 0x09 || n == 0x0A || n == 0x0D || (0x20 ≤ n && n ≤ 0x7E) || n == 0x85 ||
    (0xA0 ≤ n && n ≤ 0xD7FF) || (0xE000 ≤ n && n ≤ 0xFFFD) || 0x10000 ≤ n

/-- Whether a character may stand in a name: of an anchor, a directive or a handle. -/
def isNameChar (c : Char) : Bool :=
  ('0' ≤ c && c ≤ '9') || ('A' ≤ c && c ≤ 'Z') || ('a' ≤ c && c ≤ 'z') || c == '-' || c == '_'

namespace Cursor

/-- The next character, if there is one. -/
def peek (c : Cursor) : Option Char := c.rest.head?

/-- The character after the next one, if there is one. -/
def peekSecond (c : Cursor) : Option Char := c.rest.tail.head?

/-- The cursor after the next character. Of a carriage return and a line feed the second
one begins the line; a byte order mark takes no column. -/
def next (c : Cursor) : Cursor :=
  match c.rest with
  | [] => c
  | ch :: rest =>
    let index := c.index + 1
    if isBreak ch && !(ch == '\r' && rest.head? == some '\n') then ⟨rest, index, c.line + 1, 0⟩
    else if ch == '\ufeff' then ⟨rest, index, c.line, c.column⟩
    else ⟨rest, index, c.line, c.column + 1⟩

/-- The cursor after some characters. -/
def forward : Nat → Cursor → Cursor
  | 0, c => c
  | n + 1, c => forward n c.next

/-- The characters of a kind that stand here, and the cursor after them. -/
def span (kind : Char → Bool) (c : Cursor) : List Char × Cursor :=
  let cs := c.rest.takeWhile kind
  (cs, c.forward cs.length)

/-- The cursor after the spaces. -/
def skipSpaces (c : Cursor) : Cursor := (c.span (· == ' ')).2

/-- The cursor after the spaces up to a column. -/
def skipSpacesTo (column : Nat) (c : Cursor) : Cursor :=
  let spaces := (c.rest.takeWhile (· == ' ')).length
  c.forward (min spaces (column - c.column))

/-- The cursor after a comment, if one stands here. -/
def skipComment (c : Cursor) : Cursor :=
  if c.peek == some '#' then (c.span (!isBreak ·)).2 else c

/-- The line break that stands here, and the cursor after it. All breaks of older systems
count as a line feed. -/
def lineBreak? (c : Cursor) : Option (Char × Cursor) :=
  match c.rest with
  | '\r' :: '\n' :: _ => some ('\n', c.forward 2)
  | ch :: _ =>
    if ch == '\u2028' || ch == '\u2029' then some (ch, c.next)
    else if isBreak ch then some ('\n', c.next) else none
  | [] => none

/-- Whether three characters stand here on their own. -/
def isMarkedBy (mark : List Char) (c : Cursor) : Bool :=
  mark.isPrefixOf c.rest && isGapOrEnd (c.rest.drop 3).head?

/-- Whether the mark before a document stands here. -/
def beginsDocument (c : Cursor) : Bool := c.isMarkedBy ['-', '-', '-']

/-- Whether the mark after a document stands here. -/
def endsDocument (c : Cursor) : Bool := c.isMarkedBy ['.', '.', '.']

/-- Whether a mark between documents stands here. -/
def separates (c : Cursor) : Bool := c.beginsDocument || c.endsDocument

/-- A line break that follows some breaks: a single line feed becomes a space. -/
def folded (first : Char) (more : List Char) : List Char :=
  if first != '\n' then first :: more else if more.isEmpty then [' '] else more

theorem rest_next (c : Cursor) : c.next.rest = c.rest.tail := by
  obtain ⟨rest, index, line, column⟩ := c
  cases rest with
  | nil => rfl
  | cons ch rest =>
    simp only [next]
    split
    · rfl
    · split <;> rfl

theorem rest_forward (n : Nat) (c : Cursor) : (c.forward n).rest = c.rest.drop n := by
  induction n generalizing c with
  | zero => rfl
  | succ n ih => rw [forward, ih, rest_next, List.drop_tail]

theorem length_skipSpaces (c : Cursor) : c.skipSpaces.rest.length ≤ c.rest.length := by
  simp [skipSpaces, span, rest_forward]

theorem length_skipComment (c : Cursor) : c.skipComment.rest.length ≤ c.rest.length := by
  unfold skipComment
  split <;> simp [span, rest_forward]

/-- A line break takes something away from a text. -/
theorem length_lineBreak {c c' : Cursor} {b : Char} (h : c.lineBreak? = some (b, c')) :
    c'.rest.length < c.rest.length := by
  unfold lineBreak? at h
  split at h
  · rename_i hr
    cases h
    simp only [rest_forward, hr, List.drop_succ_cons, List.drop_zero, List.length_cons]
    omega
  · rename_i hr
    split at h
    · cases h; simp [rest_next, hr]
    · split at h
      · cases h; simp [rest_next, hr]
      · simp at h
  · simp at h

end Cursor

end Questionnaire.Yaml
