/-
# The natural order of blocks

An id made of numbers between dots, such as `2.10`, is ordered by the numbers;
every other id is ordered by its characters and comes after those. The digits
may be those of any script, and one line end after the last number is allowed. An id
that is no text has no order, and neither has one with a number that is too
long.

Key definitions: `SortKey.ofText`, `Block.sortKey`, `SortKey.le`, `inNaturalOrder`.
Key theorem: `inNaturalOrder_perm`.
-/
import Questionnaire.Fault
import Questionnaire.Survey.Basic
import Questionnaire.Text.Numeral

namespace Questionnaire

/-- What an id is ordered by. -/
inductive SortKey where
  | numbered (parts : List Nat)
  | named (id : String)
  deriving DecidableEq, Repr

namespace SortKey

/-- The runs of characters between the dots. -/
def runs : List Char → List (List Char)
  | [] => [[]]
  | c :: cs =>
    if c = '.' then [] :: runs cs
    else match runs cs with
      | [] => [[c]]
      | r :: rs => (c :: r) :: rs

/-- A text without one line end after it. -/
def chomp (cs : List Char) : List Char :=
  if cs.getLast? = some '\n' then cs.dropLast else cs

/-- Whether a run is a number: digits and at least one of them. -/
def isNumber (run : List Char) : Bool := !run.isEmpty && run.all isDecimalDigit

/-- What a text is ordered by as an id. -/
def ofText (id : String) : SortKey :=
  let parts := runs (chomp id.toList)
  if parts.all isNumber then numbered (parts.map digitsValue) else named id

/-- Whether the numbers of a text are short enough to be read. -/
def isReadable (id : String) : Bool :=
  let parts := runs (chomp id.toList)
  !parts.all isNumber || parts.all (·.length ≤ digitLimit)

/-- What an id is ordered by. -/
def ofId : Document → Except Fault SortKey
  | .str s => if isReadable s then .ok (ofText s) else .error .unsuitable
  | _ => .error .illTyped

/-- Lists of numbers in lexicographic order. -/
def numbersLe : List Nat → List Nat → Bool
  | [], _ => true
  | _ :: _, [] => false
  | m :: ms, n :: ns => m < n || (m == n && numbersLe ms ns)

/-- Less or equal: numbered ids before named ones. -/
def le : SortKey → SortKey → Bool
  | numbered a, numbered b => numbersLe a b
  | numbered _, named _ => true
  | named _, numbered _ => false
  | named a, named b => a ≤ b

end SortKey

/-- What a block is ordered by. -/
def Block.sortKey (b : Block) : Except Fault SortKey := SortKey.ofId b.id

/-- Items with what their blocks are ordered by. -/
def withSortKeys {α : Type} (block : α → Block) : List α → Except Fault (List (SortKey × α))
  | [] => .ok []
  | x :: xs => do
    let key ← (block x).sortKey
    let more ← withSortKeys block xs
    return (key, x) :: more

/-- Items in the natural order of their blocks; those with equal keys keep their order. -/
def inNaturalOrder {α : Type} (block : α → Block) (items : List α) : Except Fault (List α) :=
  (withSortKeys block items).map fun keyed =>
    (keyed.mergeSort fun x y => x.1.le y.1).map (·.2)

/-- Blocks in natural order. -/
def sortBlocks (blocks : List Block) : Except Fault (List Block) := inNaturalOrder id blocks

theorem map_snd_of_withSortKeys {α : Type} {block : α → Block} {items : List α}
    {keyed : List (SortKey × α)} (h : withSortKeys block items = .ok keyed) :
    keyed.map (·.2) = items := by
  induction items generalizing keyed with
  | nil => cases h; rfl
  | cons x xs ih =>
    rw [withSortKeys] at h
    cases hk : (block x).sortKey with
    | error f => simp [hk, bind, Except.bind] at h
    | ok key =>
      cases hm : withSortKeys block xs with
      | error f => simp [hk, hm, bind, Except.bind] at h
      | ok more =>
        simp only [hk, hm, bind, Except.bind, pure, Except.pure, Except.ok.injEq] at h
        simp [← h, ih hm]

/-- Putting items in order loses none and adds none. -/
theorem inNaturalOrder_perm {α : Type} {block : α → Block} {items sorted : List α}
    (h : inNaturalOrder block items = .ok sorted) : sorted.Perm items := by
  cases hk : withSortKeys block items with
  | error f => simp [inNaturalOrder, hk, Except.map] at h
  | ok keyed =>
    simp only [inNaturalOrder, hk, Except.map, Except.ok.injEq] at h
    rw [← h, ← map_snd_of_withSortKeys hk]
    exact (List.mergeSort_perm _ _).map _

end Questionnaire
