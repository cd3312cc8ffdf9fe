/-
# Spearman's rank correlation

The correlation of the ranks of paired observations. The sums are formed in
whole numbers, so a perfect correlation is exactly one.
-/
import Questionnaire.Whole
import Questionnaire.Fault
import Questionnaire.Document.Grid
import Questionnaire.Stats.Outcome
import Questionnaire.Stats.Rank
import Questionnaire.Stats.Tail

namespace Questionnaire.Stats

open Document (Cells)

/-- The sum of the products of two lists, place by place. -/
def dot (xs ys : List Nat) : Nat := sumOf (List.zipWith (· * ·) xs ys)

/-- The sum of products of the deviations of two lists from their means, times their length. -/
def codeviation (xs ys : List Nat) : Int :=
  (xs.length * dot xs ys : Nat) - (sumOf xs * sumOf ys : Nat)

/-- The correlation of two lists of equal length that are not constant. -/
def correlation (xs ys : List Nat) : Float :=
  let xy := codeviation xs ys
  let square := codeviation xs xs * codeviation ys ys
  if xy * xy = square then (if xy < 0 then -1.0 else 1.0)
  else Float.ofInt xy / Float.sqrt (Float.ofInt square)

/-- Texts as numbers in the same order: how many texts come before each. -/
def textPlaces (ss : List String) : List Number :=
  ss.map fun s => .int (ss.countP fun t => decide (t < s) : Nat)

/-- Whether the cells of a column, which must be fit for keys, are all the same. -/
def isUniform (cells : List Document) : Except Fault Bool := do
  cells.forM (·.asKey)
  match cells with
  | [] => return true
  | first :: rest => return rest.all (· == first)

/-- Whether all values are the same. -/
def isConstant (values : List Number) : Bool := (distinctValues values).length < 2

/-- The correlation of two columns of numbers. Constant ones have none, and neither have those
with what is no number. Two pairs do not make a correlation significant. -/
def rankCorrelation (xs ys : List Number) : Outcome :=
  if isConstant xs || isConstant ys || (xs ++ ys).any (·.toFloat.isNaN) then .nothing
  else
    let r := correlation (doubledRanks xs) (doubledRanks ys)
    ⟨r, if xs.length < 3 then 1.0 else correlationTail (xs.length - 2) r⟩

/-- Whether all cells compare as equal to the first one. -/
def isLevel : List Document → Bool
  | [] => true
  | first :: rest => (first :: rest).all (first.equals ·)

/-- What comes of columns in which some cell is neither a text nor a number that fits a format.
They have no order, but that shows only if no column is constant and no float that is no number
comes before all whole numbers that fit no format. -/
def unorderedCorrelation (xs ys : List Document) : Except Fault Outcome :=
  if isLevel xs || isLevel ys then .ok .nothing
  else
    let cells := (xs.zip ys).flatMap fun (x, y) => [x, y]
    let isTooWide (d : Document) : Bool := d.number?.isSome && d.format?.isNone
    match cells.find? fun d => d.isNaN || isTooWide d with
    | some d => if d.isNaN then .ok .nothing else .error .illTyped
    | none => .error .illTyped

/-- The correlation of two columns, brought into one form. Numbers beside texts become texts. -/
def cellCorrelation (xs ys : Cells) : Except Fault Outcome :=
  match xs, ys with
  | .numbers f ms, .numbers g ns =>
    let common := f.join g
    let brought (h : ColumnFormat) (ns : List Number) :=
      ns.map fun n => common.convert (h.convert n)
    .ok (rankCorrelation (brought f ms) (brought g ns))
  | .mixed ds, other => unorderedCorrelation ds other.documents
  | other, .mixed ds => unorderedCorrelation other.documents ds
  | xs, ys =>
    let places (c : Cells) := textPlaces (c.documents.map (·.display))
    .ok (rankCorrelation (places xs) (places ys))

/-- Spearman's rank correlation of paired observations. -/
def spearman (xs ys : List Document) : Except Fault Outcome :=
  if xs.length ≠ ys.length then .error (.pairedSizesDiffer xs.length ys.length)
  else if xs.length < 2 then .ok .nothing
  else do
    if ← isUniform xs then return .nothing
    if ← isUniform ys then return .nothing
    cellCorrelation (.of xs) (.of ys)

end Questionnaire.Stats
