/-
# Lists of lists as grids

A document of nested lists is a grid if all lists at one depth are equally
long and it is not too deep. Its shape gives these lengths from the outside in;
a document that is no list is a grid without depth. Grids are compared cell by
cell, after the cells of each have been brought into one form.

Key definitions: `Document.shape?`, `Document.leaves`, `Document.Cells`,
`Document.differences`.
-/
import Questionnaire.Column
import Questionnaire.Document.Access
import Questionnaire.Document.Display
import Questionnaire.Text.Numeral

namespace Questionnaire.Document

mutual

/-- The shape of a grid; none if lists at one depth differ in length. -/
def shape? : Document → Option (List Nat)
  | list items => do
    let shapes ← shapes? items
    match shapes with
    | [] => some [0]
    | s :: rest => if rest.all (· == s) then some (items.length :: s) else none
  | _ => some []

/-- The shapes of the items of a list. -/
def shapes? : List Document → Option (List (List Nat))
  | [] => some []
  | d :: ds => do
    let s ← d.shape?
    let rest ← shapes? ds
    return s :: rest

end

mutual

/-- The documents in a grid that are no lists, in order. -/
def leaves : Document → List Document
  | list items => leavesOf items
  | d => [d]

/-- The documents in some grids that are no lists. -/
def leavesOf : List Document → List Document
  | [] => []
  | d :: ds => d.leaves ++ leavesOf ds

end

/-- How deep a grid may be. -/
def depthLimit : Nat := 64

/-- The shape of a document that must be a grid. -/
def shape (d : Document) : Except Fault (List Nat) :=
  match d.shape? with
  | some s => if depthLimit < s.length then .error .unsuitable else .ok s
  | none => .error .unsuitable

/-- A shape as messages give it: `(2, 3)`, and `(2,)` for a single length. -/
def shapeText : List Nat → String
  | [n] => "(" ++ toString n ++ ",)"
  | ns => "(" ++ ", ".intercalate (ns.map fun n => toString n) ++ ")"

/-! ### Comparing cells -/

/-- Cells in one form: numbers in a format, texts, or whatever they are. -/
inductive Cells where
  | numbers (format : ColumnFormat) (ns : List Number)
  | texts (ss : List String)
  | mixed (ds : List Document)
  deriving Repr, Inhabited

/-- The format of a cell that is a number and fits one. -/
def format? : Document → Option ColumnFormat
  | bool _ => some .truth
  | int n => ColumnFormat.ofInt? n
  | float _ | nan _ => some .floating
  | _ => none

/-- Whether a cell is a text. -/
def isText : Document → Bool
  | str _ => true
  | _ => false

/-- A number in a format as a document. -/
def ofFormat (f : ColumnFormat) (n : Number) : Document :=
  match f with
  | .truth => bool (n != 0)
  | f => ofNumber (f.convert n)

/-- A text in a row of texts, which loses the null characters at its end. -/
def textCell (s : String) : String := s.dropEndWhile (· == '\x00') |>.toString

/-- Cells in the form that fits them all. Among texts a number becomes one. -/
def Cells.of (ds : List Document) : Cells :=
  let formats := ds.filterMap (·.format?)
  if !ds.all (fun d => d.isText || d.format?.isSome) then .mixed ds
  else if formats.length == ds.length then .numbers (.joinAll formats) (ds.filterMap (·.number?))
  else .texts (ds.map fun d => textCell d.display)

/-- The cells as documents. -/
def Cells.documents : Cells → List Document
  | .numbers format ns => ns.map (ofFormat format)
  | .texts ss => ss.map str
  | .mixed ds => ds

/-- In how many places cells differ. A number differs from every text. -/
def Cells.differences (a b : Cells) : Nat :=
  match a, b with
  | .numbers f ms, .numbers g ns =>
    let common := f.toCompare g
    (ms.zip ns).countP fun (m, n) => common.convert (f.convert m) != common.convert (g.convert n)
  | a, b => (a.documents.zip b.documents).countP fun (x, y) => !x.equals y

/-- How many places of two grids of one shape differ. -/
def differences (a b : Document) : Except Fault Nat := do
  let s ← a.shape
  let t ← b.shape
  if s ≠ t then .error (.shapesDiffer (shapeText s) (shapeText t))
  else return (Cells.of a.leaves).differences (.of b.leaves)

/-! ### Reading cells -/

/-- A number as a whole number of 64 bits: a float loses its fraction. -/
def wordOf (n : Number) : Except Fault Int :=
  let truncated := if n.blt 0 then n.ceil? else n.floor?
  match truncated, n with
  | some n, _ =>
    if n < -ColumnFormat.signedLimit || ColumnFormat.signedLimit ≤ n then .error .tooLarge
    else .ok n
  | none, .float x => if x.isNaN then .error .unsuitable else .error .tooLarge
  | none, .int _ => .error .tooLarge

/-- A cell as a whole number of 64 bits. -/
def wordCell : Document → Except Fault Int
  | str s =>
    match wholeOfText? s with
    | some n => wordOf (.int n)
    | none => .error .unsuitable
  | d => do wordOf (← d.number)

/-- A cell as a float; nothing is no number. -/
def floatCell : Document → Except Fault Float
  | null => .ok (0.0 / 0.0)
  | str s =>
    match floatOfText? s with
    | some x => .ok x
    | none => .error .unsuitable
  | d => do floatOf (← d.number)

/-- The rows of a grid of depth two, with their leaves read; none for any other grid. -/
def rows? {α : Type} (read : Document → Except Fault α) (d : Document) :
    Except Fault (Option (List (List α))) := do
  let s ← d.shape
  let _ ← d.leaves.mapM read
  match s, d with
  | [_, _], list items => return some (← items.mapM fun row => row.leaves.mapM read)
  | _, _ => return none

end Questionnaire.Document
