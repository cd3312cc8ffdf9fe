/-
# Reading the parts of a document

A reader asks a document for a field, for the things it lists or for a value of
a kind, and a document that does not have them is at fault. A knot is read as
the list or mapping that it is.
-/
import Questionnaire.Document
import Questionnaire.Fault

namespace Questionnaire.Document

/-- The value under a name that a mapping must have. -/
def required (name : String) (d : Document) : Except Fault Document :=
  match d.opened with
  | map entries =>
    match lookup (str name) entries with
    | some v => .ok v
    | none => .error .missingField
  | _ => .error .illTyped

/-- A document that must be a mapping. -/
def mapping (d : Document) : Except Fault (List (Document × Document)) :=
  match d.opened with
  | map entries => .ok entries
  | _ => .error .notAMapping

/-- The value under a name, or another one if there is none. -/
def fieldD (name : String) (d default : Document) : Document :=
  (d.field? name).getD default

/-- The things a document lists: the items of a list, a pair or a set, the keys of a mapping,
the characters of a text, the numbers of bytes. -/
def elements (d : Document) : Except Fault (List Document) :=
  match d.opened with
  | list items | set items => .ok items
  | pair a b => .ok [a, b]
  | map entries => .ok (entries.map (·.1))
  | str s => .ok (s.toList.map fun c => str (String.singleton c))
  | bytes bs => .ok (bs.map fun b => int b.toNat)
  | _ => .error .illTyped

/-- A document that must be fit for a key. -/
def asKey (d : Document) : Except Fault Unit :=
  if d.isKey then .ok () else .error .illTyped

/-- A text. -/
def text : Document → Except Fault String
  | str s => .ok s
  | _ => .error .illTyped

/-- A whole number; truth values count as one and zero. -/
def whole : Document → Except Fault Int
  | bool b => .ok (if b then 1 else 0)
  | int n => .ok n
  | _ => .error .illTyped

/-- A number. -/
def number (d : Document) : Except Fault Number :=
  match d.number? with
  | some n => .ok n
  | none => .error .illTyped

/-- A result that is missing only if a number was too large. -/
def orTooLarge {α : Type} : Option α → Except Fault α
  | some x => .ok x
  | none => .error .tooLarge

/-- A number as a float, which a whole number may be too large for. -/
def floatOf (n : Number) : Except Fault Float := orTooLarge n.toFloat?

/-- A document for a number. -/
def ofNumber : Number → Document
  | .int n => int n
  | .float x => float x

theorem sizeOf_lookup {key v : Document} {entries : List (Document × Document)}
    (h : lookup key entries = some v) : sizeOf v < sizeOf entries := by
  induction entries with
  | nil => simp [lookup] at h
  | cons entry rest ih =>
    obtain ⟨k, w⟩ := entry
    rw [lookup] at h
    split at h
    · cases h; simp only [List.cons.sizeOf_spec, Prod.mk.sizeOf_spec]; omega
    · have := ih h; simp only [List.cons.sizeOf_spec]; omega

/-- An item of a list that is a value of a mapping is smaller than the mapping. -/
theorem sizeOf_item {key item : Document} {entries : List (Document × Document)}
    {items : List Document} (h : lookup key entries = some (list items)) (hi : item ∈ items) :
    sizeOf item < sizeOf (map entries) := by
  have := sizeOf_lookup h
  have := List.sizeOf_lt_of_mem hi
  simp only [list.sizeOf_spec, map.sizeOf_spec] at *
  omega

end Questionnaire.Document
