/-
# Sheets

A sheet is a document on its way into a YAML text: the entries of its mappings
are put into the order in which they are written, and parts that are one and
the same thing in several places are marked. Such a part is written once, with
a label, and the other places only refer to the label. Labels are numbered as
parts come up for the second time.

Without its marks a sheet is a document again, whatever the marks are.

Key definitions: `Sheet`, `Sheet.ofDocument`, `Sheet.document`, `Sheet.sorted`,
`Sheet.labelled`.
Key theorem: `Sheet.document_ofDocument`.
-/
import Questionnaire.Document

namespace Questionnaire.Yaml

/-- A document whose parts may be marked. -/
inductive Sheet (α : Type) where
  | value (d : Document)
  | list (items : List (Sheet α))
  | map (entries : List (Document × Sheet α))
  | mark (a : α) (content : Sheet α)
  deriving Repr, Inhabited

/-- What stands at a place of a labelled part: the part itself, if it is the first place. -/
inductive Label where
  | first (number : Nat)
  | again (number : Nat)
  deriving DecidableEq, Repr

/-- The order of keys: texts by their characters, numbers by their values. -/
def keysLe (a b : Document) : Bool :=
  match a, b with
  | .str s, .str t => decide (s ≤ t)
  | a, b =>
    match a.number?, b.number? with
    | some m, some n => !(n.blt m)
    | _, _ => true

/-- Whether keys have an order. -/
def areOrdered (keys : List Document) : Bool :=
  keys.all (fun k => match k with | .str _ => true | _ => false) ||
    keys.all (fun k => k.number?.isSome)

/-- Entries by rising keys, or as they are if their keys have no order. -/
def sortEntries {α : Type} (entries : List (Document × α)) : List (Document × α) :=
  if areOrdered (entries.map (·.1)) then entries.mergeSort fun a b => keysLe a.1 b.1 else entries

namespace Sheet

variable {α : Type}

/-- A mapping with named keys. -/
def record (fields : List (String × Sheet α)) : Sheet α :=
  map (fields.map fun (name, content) => (.str name, content))

mutual

/-- A document without marks. -/
def ofDocument : Document → Sheet α
  | .list ds => list (ofItems ds)
  | .map es => map (ofEntries es)
  | d => value d

/-- Items without marks. -/
def ofItems : List Document → List (Sheet α)
  | [] => []
  | d :: ds => ofDocument d :: ofItems ds

/-- Entries without marks. -/
def ofEntries : List (Document × Document) → List (Document × Sheet α)
  | [] => []
  | (k, v) :: es => (k, ofDocument v) :: ofEntries es

end

mutual

/-- The document on a sheet. -/
def document : Sheet α → Document
  | value d => d
  | list items => .list (itemDocuments items)
  | map entries => .map (entryDocuments entries)
  | mark _ content => content.document

/-- The documents of items. -/
def itemDocuments : List (Sheet α) → List Document
  | [] => []
  | s :: rest => s.document :: itemDocuments rest

/-- The documents of entries, under their keys. -/
def entryDocuments : List (Document × Sheet α) → List (Document × Document)
  | [] => []
  | (k, s) :: rest => (k, s.document) :: entryDocuments rest

end

mutual

/-- The sheet of a document holds that document. -/
theorem document_ofDocument : ∀ d : Document, (ofDocument d : Sheet α).document = d
  | .list ds => by simp [ofDocument, document, itemDocuments_ofItems ds]
  | .map es => by simp [ofDocument, document, entryDocuments_ofEntries es]
  | .null | .bool _ | .int _ | .float _ | .nan _ | .str _ | .bytes _ | .day _ | .moment _
  | .pair .. | .set _ | .knot .. | .link .. => by simp [ofDocument, document]

theorem itemDocuments_ofItems : ∀ ds : List Document,
    itemDocuments (ofItems ds : List (Sheet α)) = ds
  | [] => by simp [ofItems, itemDocuments]
  | d :: ds => by
    simp [ofItems, itemDocuments, document_ofDocument d, itemDocuments_ofItems ds]

theorem entryDocuments_ofEntries : ∀ es : List (Document × Document),
    entryDocuments (ofEntries es : List (Document × Sheet α)) = es
  | [] => by simp [ofEntries, entryDocuments]
  | (k, v) :: es => by
    simp [ofEntries, entryDocuments, document_ofDocument v, entryDocuments_ofEntries es]

end

mutual

/-- The sheet with the entries of its mappings in the order in which they are written. -/
def sorted : Sheet α → Sheet α
  | value d => value d
  | list items => list (sortedItems items)
  | map entries => map (sortEntries (sortedEntries entries))
  | mark a content => mark a content.sorted

/-- Sorted items; they stay in their order. -/
def sortedItems : List (Sheet α) → List (Sheet α)
  | [] => []
  | s :: rest => s.sorted :: sortedItems rest

/-- Entries with sorted values, in the order of the given ones. -/
def sortedEntries : List (Document × Sheet α) → List (Document × Sheet α)
  | [] => []
  | (k, s) :: rest => (k, s.sorted) :: sortedEntries rest

end

mutual

/-- The marks of a sheet, from its beginning to its end. -/
def marks : Sheet α → List α
  | value _ => []
  | list items => itemMarks items
  | map entries => entryMarks entries
  | mark a content => a :: content.marks

/-- The marks of items. -/
def itemMarks : List (Sheet α) → List α
  | [] => []
  | s :: rest => s.marks ++ itemMarks rest

/-- The marks of entries. -/
def entryMarks : List (Document × Sheet α) → List α
  | [] => []
  | (_, s) :: rest => s.marks ++ entryMarks rest

end

section Labels

variable [BEq α]

/-- Members that come again, in the order of their second coming; `seen` came before. -/
def comingAgain (seen again : List α) : List α → List α
  | [] => again
  | a :: rest =>
    if !seen.contains a then comingAgain (a :: seen) again rest
    else if again.contains a then comingAgain seen again rest
    else comingAgain seen (again ++ [a]) rest

mutual

/-- The sheet with labels at the marks among `again`, in whose order they are numbered. Other
marks are gone. The marks in `seen`, to which those of the sheet are added, came before. -/
def relabelled (again : List α) : Sheet α → List α → Sheet Label × List α
  | value d, seen => (value d, seen)
  | list items, seen =>
    let (items, seen) := relabelledItems again items seen
    (list items, seen)
  | map entries, seen =>
    let (entries, seen) := relabelledEntries again entries seen
    (map entries, seen)
  | mark a content, seen =>
    let (content, seen') := content.relabelled again (a :: seen)
    match again.idxOf? a with
    | none => (content, seen')
    | some i => (mark (if seen.contains a then .again (i + 1) else .first (i + 1)) content, seen')

/-- Items with labels. -/
def relabelledItems (again : List α) : List (Sheet α) → List α → List (Sheet Label) × List α
  | [], seen => ([], seen)
  | s :: rest, seen =>
    let (s, seen) := s.relabelled again seen
    let (rest, seen) := relabelledItems again rest seen
    (s :: rest, seen)

/-- Entries with labels. -/
def relabelledEntries (again : List α) : List (Document × Sheet α) → List α →
    List (Document × Sheet Label) × List α
  | [], seen => ([], seen)
  | (k, s) :: rest, seen =>
    let (s, seen) := s.relabelled again seen
    let (rest, seen) := relabelledEntries again rest seen
    ((k, s) :: rest, seen)

end

/-- The sheet with labels at the marks that come more than once. -/
def labelled (s : Sheet α) : Sheet Label := (s.relabelled (comingAgain [] [] s.marks) []).1

end Labels

end Sheet

end Questionnaire.Yaml
