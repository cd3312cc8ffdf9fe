/-
# Documents in messages

A message names an id by its text. An id that is not a text is shown as the
message formats show values: `None`, `True`, `1.5`, `['a', 2]`, and a day at the
top as `2024-01-31`. What leads back to a list or mapping around it is shown as
`[...]` or `{...}`. A whole number with very many digits cannot be shown.

Key definitions: `Document.shown`, `Document.display`, `Fault.naming`.
-/
import Questionnaire.Document
import Questionnaire.Fault
import Questionnaire.Decimal.Style
import Questionnaire.Text.Numeral
import Questionnaire.Text.Quoted

namespace Questionnaire

/-- A byte inside the quotes. -/
def quotedByte (quote : Char) (b : UInt8) : String :=
  let c := Char.ofNat b.toNat
  if c == quote || c == '\\' then String.ofList ['\\', c]
  else if c == '\n' then "\\n"
  else if c == '\r' then "\\r"
  else if c == '\t' then "\\t"
  else if 0x20 ≤ b.toNat && b.toNat < 0x7F then String.singleton c
  else "\\x" ++ hex 2 b.toNat

/-- Bytes in quotes. -/
def quotedBytes (bs : List UInt8) : String :=
  let q := quoteFor (bs.map fun b => Char.ofNat b.toNat)
  "b" ++ String.singleton q ++ String.join (bs.map (quotedByte q)) ++ String.singleton q

namespace Document

/-- What leads back to a list or mapping. -/
def shownLink (toMap : Bool) : String := if toMap then "\x7b...\x7d" else "[...]"

mutual

/-- A document inside another one: texts are in quotes. -/
def shown : Document → String
  | null => "None"
  | bool b => if b then "True" else "False"
  | int n => toString n
  | float x => FloatStyle.plain.write x
  | nan _ => FloatStyle.plain.notANumber
  | str s => quoted s
  | bytes bs => quotedBytes bs
  | day d => d.shown
  | moment m => m.shown
  | list items => "[" ++ ", ".intercalate (shownItems items) ++ "]"
  | pair a b => "(" ++ a.shown ++ ", " ++ b.shown ++ ")"
  | set [] => "set()"
  | set (d :: ds) => "\x7b" ++ ", ".intercalate (d.shown :: shownItems ds) ++ "\x7d"
  | map entries => "\x7b" ++ ", ".intercalate (shownEntries entries) ++ "\x7d"
  | knot nodes place => shownLink (nodeAt nodes place matches map _)
  | link _ toMap => shownLink toMap

/-- The items of a list. -/
def shownItems : List Document → List String
  | [] => []
  | d :: ds => d.shown :: shownItems ds

/-- The entries of a mapping. -/
def shownEntries : List (Document × Document) → List String
  | [] => []
  | (k, v) :: rest => (k.shown ++ ": " ++ v.shown) :: shownEntries rest

end

/-- The node at a place, with the nodes that links lead to in their places. Only a link to a node
that it is in is left; `fuel` is the number of nodes. -/
def unrollAt (nodes : List Document) : Nat → List Nat → Nat → Document
  | 0, _, _ => null
  | fuel + 1, around, place => (nodeAt nodes place).followParts fun next toMap =>
    if (place :: around).contains next then link next toMap
    else unrollAt nodes fuel (place :: around) next

/-- A knot as a list or mapping in which links lead back; any other document as it is. -/
def unrolled : Document → Document
  | knot nodes place => unrollAt nodes nodes.length [] place
  | d => d

/-- A document as a message gives it: a text, a day or a moment stands for itself. -/
def display : Document → String
  | str s => s
  | day d => d.text
  | moment m => m.text
  | d => d.unrolled.shown

/-! ### Numbers that are too long -/

/-- Whether a whole number has more digits than may be shown. -/
def isLong (n : Int) : Bool := tenTo digitLimit ≤ n.natAbs

mutual

/-- Whether a document has no whole number with more digits than may be shown. -/
def isShort : Document → Bool
  | int n => !isLong n
  | list items | set items => areShort items
  | pair a b => a.isShort && b.isShort
  | map entries => entriesAreShort entries
  | _ => true

/-- Whether no document of a list has such a number. -/
def areShort : List Document → Bool
  | [] => true
  | d :: ds => d.isShort && areShort ds

/-- Whether no key and no value has such a number. -/
def entriesAreShort : List (Document × Document) → Bool
  | [] => true
  | (k, v) :: rest => k.isShort && v.isShort && entriesAreShort rest

end

/-- Whether a message can show a document. -/
def isShowable (d : Document) : Bool := d.unrolled.isShort

end Document

namespace Fault

/-- A fault whose message names documents. If the message cannot show one of them, something else
is at fault. -/
def naming (ds : List Document) (orElse fault : Fault) : Fault :=
  if ds.all (·.isShowable) then fault else orElse

/-- A fault whose message names documents, or that one of them has a number that is too long. -/
def about (ds : List Document) (fault : Fault) : Fault := naming ds .numberTooLong fault

/-- The same of a message that is put together on lines of its own; if it cannot be, this is not
worded. -/
def citing (ds : List Document) (fault : Fault) : Fault := naming ds .unsuitable fault

end Fault

end Questionnaire
