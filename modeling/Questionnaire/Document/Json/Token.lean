/-
# The tokens of a JSON text

A JSON text is cut into brackets, marks, texts and plain values. The words
`NaN` and `Infinity` count as values. A text may not hold a control character
as it is, and a number has no superfluous zero in front.

Key definitions: `Token.read`, `Token.scan`.
-/
import Questionnaire.Document
import Questionnaire.Decimal.Digits
import Questionnaire.Text.Digit

namespace Questionnaire.Json

/-- A token. -/
inductive Token where
  | openList
  | closeList
  | openMap
  | closeMap
  | comma
  | colon
  | text (s : String)
  | value (d : Document)
  deriving Repr, Inhabited

/-- Whether a character may stand between tokens. -/
def isGap (c : Char) : Bool := c == ' ' || c == '\t' || c == '\n' || c == '\r'

/-- What a letter after a backslash stands for. -/
def escape? : Char → Option Char
  | '"' => some '"'
  | '\\' => some '\\'
  | '/' => some '/'
  | 'b' => some '\x08'
  | 'f' => some '\x0c'
  | 'n' => some '\n'
  | 'r' => some '\r'
  | 't' => some '\t'
  | _ => none

/-- A character of a text: as it is, or one of two halves that an escape may write. -/
inductive Piece where
  | char (c : Char)
  | unit (n : Nat)
  deriving Repr

/-- The characters of a text up to the closing quote, and what follows it. -/
def pieces : List Char → Option (List Piece × List Char)
  | '"' :: rest => some ([], rest)
  | '\\' :: 'u' :: a :: b :: c :: d :: rest => do
    let n ← hexValue? [a, b, c, d]
    let (ps, rest) ← pieces rest
    return (.unit n :: ps, rest)
  | '\\' :: e :: rest => do
    let c ← escape? e
    let (ps, rest) ← pieces rest
    return (.char c :: ps, rest)
  | c :: rest => do
    if c.toNat < 0x20 || c == '\\' then none
    let (ps, rest) ← pieces rest
    return (.char c :: ps, rest)
  | [] => none

/-- The character of a unit. A half that stands alone is replaced. -/
def unitChar (n : Nat) : Char :=
  if 0xD800 ≤ n ∧ n < 0xE000 then '\ufffd' else Char.ofNat n

/-- The text of its pieces: two halves in the right order make one character. -/
def joined : List Piece → List Char
  | .char c :: ps => c :: joined ps
  | .unit high :: .unit low :: ps =>
    if 0xD800 ≤ high ∧ high < 0xDC00 ∧ 0xDC00 ≤ low ∧ low < 0xE000 then
      Char.ofNat (0x10000 + (high - 0xD800) * 0x400 + (low - 0xDC00)) :: joined ps
    else unitChar high :: joined (.unit low :: ps)
  | .unit n :: ps => unitChar n :: joined ps
  | [] => []

/-- The digits at the beginning, and what follows them. -/
def digits (cs : List Char) : List Char × List Char :=
  (cs.takeWhile Char.isDigit, cs.dropWhile Char.isDigit)

/-- The digits after a point, if there are any. -/
def fraction (cs : List Char) : List Char × List Char :=
  match cs with
  | '.' :: rest => if (digits rest).1.isEmpty then ([], cs) else digits rest
  | _ => ([], cs)

/-- The number that digits write. -/
def natOf (ds : List Char) : Nat := ds.foldl (fun n d => 10 * n + (d.toNat - '0'.toNat)) 0

/-- The power of ten after the letter `e`, if there is one. -/
def power? (cs : List Char) : Option Int × List Char :=
  let after (negative : Bool) (rest : List Char) : Option Int × List Char :=
    match digits rest with
    | ([], _) => (none, cs)
    | (ds, rest) => (some (if negative then -(natOf ds : Int) else natOf ds), rest)
  match cs with
  | e :: rest =>
    if e == 'e' || e == 'E' then
      match rest with
      | '-' :: rest => after true rest
      | '+' :: rest => after false rest
      | rest => after false rest
    else (none, cs)
  | [] => (none, cs)

/-- A number without its sign, and what follows it. -/
def unsigned? (negative : Bool) (cs : List Char) : Option (Document × List Char) :=
  let (whole, afterWhole) := digits cs
  if whole.isEmpty || (1 < whole.length && whole.head? == some '0') then none
  else
    let (part, afterPart) := fraction afterWhole
    let (power, rest) := power? afterPart
    if part.isEmpty && power.isNone then
      some (.int (if negative then -(natOf whole : Int) else natOf whole), rest)
    else
      let exponent := power.getD 0 - part.length
      some (.float (Decimal.toFloat ⟨negative, natOf (whole ++ part), exponent⟩), rest)

/-- The words that stand for values. -/
def words : List (String × Document) := [
  ("null", .null), ("true", .bool true), ("false", .bool false), ("NaN", .float (0.0 / 0.0)),
  ("Infinity", .float (1.0 / 0.0)), ("-Infinity", .float (-1.0 / 0.0))]

/-- What follows a word at the beginning. -/
def afterWord? : List Char → List Char → Option (List Char)
  | [], cs => some cs
  | w :: ws, c :: cs => if w == c then afterWord? ws cs else none
  | _ :: _, [] => none

/-- A word at the beginning, and what follows it. -/
def word? (cs : List Char) : Option (Document × List Char) :=
  words.findSome? fun (w, d) => (afterWord? w.toList cs).map (d, ·)

/-- The first token of a text that does not begin with a gap, and what follows it. -/
def Token.read : List Char → Option (Token × List Char)
  | '[' :: rest => some (.openList, rest)
  | ']' :: rest => some (.closeList, rest)
  | '\x7b' :: rest => some (.openMap, rest)
  | '\x7d' :: rest => some (.closeMap, rest)
  | ',' :: rest => some (.comma, rest)
  | ':' :: rest => some (.colon, rest)
  | '"' :: rest => (pieces rest).map fun (ps, rest) => (.text (String.ofList (joined ps)), rest)
  | cs =>
    match word? cs with
    | some (d, rest) => some (.value d, rest)
    | none =>
      let read :=
        match cs with
        | '-' :: rest => unsigned? true rest
        | cs => unsigned? false cs
      read.map fun (d, rest) => (.value d, rest)

/-- The tokens of a text up to where there is none, and whether that is its end; `fuel` bounds
their number. -/
def scanWithin : Nat → List Char → List Token × Bool
  | fuel, cs =>
    match cs.dropWhile isGap with
    | [] => ([], true)
    | c :: rest =>
      match fuel with
      | 0 => ([], false)
      | fuel + 1 =>
        match Token.read (c :: rest) with
        | none => ([], false)
        | some (t, rest) =>
          let (ts, complete) := scanWithin fuel rest
          (t :: ts, complete)

/-- The tokens of a text, and whether it has nothing else. Every token takes a character, so the
text's length bounds their number. -/
def Token.scan (s : String) : List Token × Bool := scanWithin s.length s.toList

end Questionnaire.Json
