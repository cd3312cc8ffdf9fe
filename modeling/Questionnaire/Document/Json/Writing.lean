/-
# Writing JSON texts

A mapping is written by rising keys, a text in ASCII with all other characters
escaped in units of sixteen bits, and a float with the fewest digits that read
back. What JSON does not have is written as a text or a list: bytes, days and
moments as in messages, sets and pairs by their parts. What leads back to itself
has no JSON text and is left out.

Key definition: `Document.toJson`.
-/
import Questionnaire.Document.Display

namespace Questionnaire

namespace Json

/-- A character above sixteen bits as two halves, any other one as itself. -/
def unitsOf (c : Char) : List Nat :=
  let n := c.toNat
  if n < 0x10000 then [n]
  else [0xD800 + (n - 0x10000) / 0x400, 0xDC00 + (n - 0x10000) % 0x400]

/-- A character inside the quotes. -/
def escaped (c : Char) : String :=
  match c with
  | '"' => "\\\""
  | '\\' => "\\\\"
  | '\n' => "\\n"
  | '\r' => "\\r"
  | '\t' => "\\t"
  | '\x08' => "\\b"
  | '\x0c' => "\\f"
  | c =>
    if 0x20 ≤ c.toNat && c.toNat < 0x7F then String.singleton c
    else String.join ((unitsOf c).map fun n => "\\u" ++ hex 4 n)

/-- A text in quotes. -/
def inQuotes (s : String) : String := "\"" ++ String.join (s.toList.map escaped) ++ "\""

end Json

namespace Document

/-- Entries by rising keys; those with equal keys keep their order. -/
def byKey {α : Type} (entries : List (String × α)) : List (String × α) :=
  entries.mergeSort fun a b => decide (a.1 ≤ b.1)

mutual

/-- A document as a JSON text. -/
def toJson : Document → String
  | null => "null"
  | bool b => if b then "true" else "false"
  | int n => toString n
  | float x => FloatStyle.json.write x
  | nan _ => FloatStyle.json.notANumber
  | str s => Json.inQuotes s
  | bytes bs => Json.inQuotes (quotedBytes bs)
  | day d => Json.inQuotes d.text
  | moment m => Json.inQuotes m.text
  | list items | set items => "[" ++ ", ".intercalate (itemsToJson items) ++ "]"
  | pair a b => "[" ++ a.toJson ++ ", " ++ b.toJson ++ "]"
  | map entries =>
    let written := (byKey (entriesToJson entries)).map fun (k, v) => Json.inQuotes k ++ ": " ++ v
    "\x7b" ++ ", ".intercalate written ++ "\x7d"
  | knot .. | link .. => "null"

/-- The items of a list as JSON texts. -/
def itemsToJson : List Document → List String
  | [] => []
  | d :: ds => d.toJson :: itemsToJson ds

/-- The entries of a mapping as JSON texts. A key that is not a text is written by its own
JSON text. -/
def entriesToJson : List (Document × Document) → List (String × String)
  | [] => []
  | (str k, v) :: rest => (k, v.toJson) :: entriesToJson rest
  | (k, v) :: rest => (k.toJson, v.toJson) :: entriesToJson rest

end

end Document

end Questionnaire
