/-
# Writing texts and numbers into a YAML text

A text is written plain where it reads back as that text, between single quotes
where only its look is in the way, and between double quotes if it holds
characters outside ASCII or blanks that folding would lose. A long text goes on
in a new line at a space once the line is past column eighty.

Key definitions: `TextStyle.ofText`, `Placement`, `writeIn`.
-/
import Questionnaire.Document.Yaml.Kind
import Questionnaire.Document.Yaml.Cursor
import Questionnaire.Decimal.Style
import Questionnaire.Text.Quoted

namespace Questionnaire.Yaml

/-- The ways to write a text. -/
inductive TextStyle where
  | plain
  | single
  | double
  deriving DecidableEq, Repr

/-- Whether a text may hold the character outside double quotes. -/
def isSimple (c : Char) : Bool := c == '\n' || (0x20 ≤ c.toNat && c.toNat ≤ 0x7E)

/-- The signs that begin something other than a plain text. -/
def firstSigns : List Char := "#,[]\x7b\x7d&*!|>'\"%@\x60".toList

/-- Whether a plain text may not begin with these characters. -/
def isBarredAtStart : List Char → Bool
  | [] => false
  | c :: rest =>
    firstSigns.contains c ||
      ((c == '?' || c == ':' || c == '-') && isGapOrEnd rest.head?) ||
      "---".toList.isPrefixOf (c :: rest) || "...".toList.isPrefixOf (c :: rest)

/-- Whether a colon with a gap after it or a comment stands among characters that follow
another one. -/
def isBarredAfter : Char → List Char → Bool
  | _, [] => false
  | previous, c :: rest =>
    (c == ':' && isGapOrEnd rest.head?) || (c == '#' && isGapOrEnd (some previous)) ||
      isBarredAfter c rest

/-- Whether some character of one kind is followed by one of another. -/
def hasPair (first second : Char → Bool) : List Char → Bool
  | c :: d :: rest => (first c && second d) || hasPair first second (d :: rest)
  | _ => false

/-- Whether characters may stand without quotes in a mapping or list without brackets. -/
def isPlainForm (cs : List Char) : Bool :=
  cs.all (fun c => isSimple c && c != '\n') && !isBarredAtStart cs &&
    (match cs with | [] => true | c :: rest => !isBarredAfter c rest) &&
    cs.head? != some ' ' && cs.getLast? != some ' '

/-- Whether characters may stand between single quotes: no space beside a line break would
be lost. -/
def isSingleForm (cs : List Char) : Bool :=
  cs.all isSimple && !hasPair (· == ' ') (· == '\n') cs && !hasPair (· == '\n') (· == ' ') cs

namespace TextStyle

/-- The style of characters that, if plain, read back as what they stand for or do not. -/
def ofChars (readsBack : Bool) (cs : List Char) : TextStyle :=
  if readsBack && isPlainForm cs then plain
  else if isSingleForm cs then single else double

/-- The style of a text. -/
def ofText (s : String) : TextStyle := ofChars (Kind.ofPlain s == .text) s.toList

end TextStyle

/-- Where a text is written: the column at which it begins, the indentation of its other
lines, and whether it may have some. -/
structure Placement where
  column : Nat
  indent : Nat
  mayBreak : Bool
  deriving Repr

/-- The column after which a text goes on in a new line. -/
def lineWidth : Nat := 80

/-- The end of a line and the indentation of the next one. -/
def newLine (indent : Nat) : List Char := '\n' :: List.replicate indent ' '

/-! ### Folding at spaces -/

/-- Characters up to the next space, line break or quote, or a run of spaces or of breaks. -/
def runOf : List Char → List Char
  | [] => []
  | c :: rest =>
    if c == ' ' || c == '\n' then c :: rest.takeWhile (· == c)
    else c :: rest.takeWhile fun d => d != ' ' && d != '\n'

/-- The runs of a text; `fuel` bounds their number. -/
def runsOf : Nat → List Char → List (List Char)
  | 0, _ => []
  | fuel + 1, cs =>
    match runOf cs with
    | [] => []
    | run => run :: runsOf fuel (cs.drop run.length)

/-- A run between words, plain or between single quotes. -/
def writeGap (p : Placement) (first last : Bool) (column : Nat) (run : List Char) :
    List Char × Nat :=
  if run.head? == some '\n' then (run ++ newLine p.indent, p.indent)
  else if run.length = 1 && lineWidth < column && p.mayBreak && !first && !last then
    (newLine p.indent, p.indent)
  else (run, column + run.length)

/-- A word, with single quotes written twice if it is between them. -/
def writeWord (quoted : Bool) (run : List Char) : List Char :=
  if quoted then run.flatMap fun c => if c == '\'' then ['\'', '\''] else [c] else run

/-- The runs of a text one after another. -/
def writeRuns (p : Placement) (quoted : Bool) : Bool → Nat → List (List Char) → List Char
  | _, _, [] => []
  | first, column, run :: rest =>
    let isGap := run.head? == some ' ' || run.head? == some '\n'
    let (text, column) :=
      if isGap then writeGap p first rest.isEmpty column run
      else
        let word := writeWord quoted run
        (word, column + word.length)
    text ++ writeRuns p quoted false column rest

/-- A text without quotes or between single quotes. -/
def writeFolded (p : Placement) (quoted : Bool) (cs : List Char) : String :=
  let mark := if quoted then ['\''] else []
  let body := writeRuns p quoted true (p.column + mark.length) (runsOf cs.length cs)
  String.ofList (mark ++ body ++ mark)

/-! ### Escapes -/

/-- The letter of an escape that has one. -/
def escapeLetter? : Char → Option Char
  | '\x00' => some '0'
  | '\x07' => some 'a'
  | '\x08' => some 'b'
  | '\t' => some 't'
  | '\n' => some 'n'
  | '\x0b' => some 'v'
  | '\x0c' => some 'f'
  | '\r' => some 'r'
  | '\x1b' => some 'e'
  | '"' => some '"'
  | '\\' => some '\\'
  | '\x85' => some 'N'
  | '\xa0' => some '_'
  | '\u2028' => some 'L'
  | '\u2029' => some 'P'
  | _ => none

/-- The escape of a character, unless it stands for itself between double quotes. -/
def escapeOf? (c : Char) : Option (List Char) :=
  let digits (letter : Char) (width : Nat) : List Char :=
    '\\' :: letter :: (hex width c.toNat).toList.map Char.toUpper
  match escapeLetter? c with
  | some letter => some ['\\', letter]
  | none =>
    if 0x20 ≤ c.toNat && c.toNat ≤ 0x7E then none
    else if c.toNat ≤ 0xFF then some (digits 'x' 2)
    else if c.toNat ≤ 0xFFFF then some (digits 'u' 4)
    else some (digits 'U' 8)

/-- The characters of a text between double quotes. A line is broken before a space or after
an escape; `pending` holds the characters since then, in reverse. A backslash ends the line,
and another one keeps a space that begins the next one. -/
def writeEscaped (p : Placement) (first : Bool) (column : Nat) (pending : List Char) :
    List Char → List Char
  | [] => pending.reverse
  | c :: rest =>
    let mayBreakHere := p.mayBreak && !first && !rest.isEmpty
    match escapeOf? c with
    | some escape =>
      let column := column + pending.length + escape.length
      let written := pending.reverse ++ escape
      if mayBreakHere && lineWidth + 1 < column then
        let kept := if rest.head? == some ' ' then ['\\'] else []
        written ++ '\\' :: newLine p.indent ++ kept ++
          writeEscaped p false (p.indent + kept.length) [] rest
      else written ++ writeEscaped p false column [] rest
    | none =>
      if mayBreakHere && (c == ' ' || pending.isEmpty) && lineWidth < column + pending.length then
        let kept := if c == ' ' then ['\\'] else []
        pending.reverse ++ '\\' :: newLine p.indent ++ kept ++
          writeEscaped p false (p.indent + kept.length) [c] rest
      else writeEscaped p false column (c :: pending) rest

/-- A text between double quotes. -/
def writeDouble (p : Placement) (cs : List Char) : String :=
  String.ofList ('"' :: writeEscaped p true (p.column + 1) [] cs ++ ['"'])

/-- Characters in a style. -/
def writeIn (p : Placement) (style : TextStyle) (cs : List Char) : String :=
  match style with
  | .plain => writeFolded p false cs
  | .single => writeFolded p true cs
  | .double => writeDouble p cs

end Questionnaire.Yaml
