/-
# Documents in the form of a survey

Ids are texts, blocks, questions and choices stand in lists, and a branch map
has each key once. What the other fields hold does not matter here, so every
document whose fields are of the usual kinds has this form, and many others do.

Key definitions: `Document.isBlockForm`, `Document.isSurveyForm`.
Key theorems: `Document.check_of_lookup`, `Document.eq_of_equals`.
-/
import Questionnaire.Document.Grid
import Questionnaire.Proofs.Success
import Questionnaire.Survey.Reading

namespace Questionnaire.Document

/-! ### Texts -/

theorem beq_str_iff {d : Document} {s : String} : (d == str s) = true ↔ d = str s := by
  cases d with
  | str r =>
    change (str r).same (str s) = true ↔ _
    simp [same]
  | _ => simp [BEq.beq, same, sameNumber, number?]

theorem str_beq_iff {d : Document} {s : String} : (str s == d) = true ↔ d = str s := by
  change (str s).same d = true ↔ _
  cases d with
  | str r =>
    simp only [same, beq_iff_eq, str.injEq]
    exact eq_comm
  | _ => simp [same]

/-- What equals a text is that text. -/
theorem eq_of_equals {a b : Document} (ha : a.isText = true) (h : a.equals b = true) : b = a := by
  cases a <;> simp only [isText, Bool.false_eq_true] at ha
  simpa [equals, isNaN, str_beq_iff] using h

/-! ### Fields and items -/

/-- Whether a document is a list of things that pass a check. -/
def isListOf (check : Document → Bool) : Document → Bool
  | list items => items.all check
  | _ => false

/-- Whether a document is a mapping whose values pass the checks for their names. -/
def hasFields (check : Document → Document → Bool) (d : Document) : Bool :=
  match d.opened with
  | map entries => entries.all fun (name, value) => check name value
  | _ => false

/-- Whether a document is a mapping that has each key once, or counts as not given. -/
def isTable : Document → Bool
  | map entries => decide (entries.Pairwise fun e f => (e.1 == f.1) = false)
  | d => !d.isGiven

/-- What counts as given and is a table is a mapping. -/
theorem exists_entries_of_isTable {d : Document} (htable : d.isTable = true)
    (hgiven : d.isGiven = true) :
    ∃ entries, d = map entries ∧ entries.Pairwise fun e f => (e.1 == f.1) = false := by
  cases d with
  | map entries => exact ⟨entries, rfl, of_decide_eq_true htable⟩
  | _ => simp [isTable, hgiven] at htable

section Fields

variable {check : Document → Document → Bool} {d v : Document} (name : String)

variable {name} in
theorem check_of_lookup : ∀ {entries : List (Document × Document)},
    entries.all (fun (name, value) => check name value) = true →
      lookup (str name) entries = some v → check (str name) v = true
  | [], _, h => by cases h
  | (k, w) :: rest, hform, h => by
    simp only [List.all_cons, Bool.and_eq_true] at hform
    rw [lookup] at h
    split at h
    · rename_i hk
      obtain rfl := beq_str_iff.mp hk
      cases h
      exact hform.1
    · exact check_of_lookup hform.2 h

theorem exists_entries_of_hasFields (hform : d.hasFields check = true) :
    ∃ entries, d.opened = map entries ∧
      entries.all (fun (name, value) => check name value) = true := by
  unfold hasFields at hform
  cases hopened : d.opened with
  | map entries => exact ⟨entries, rfl, by simpa only [hopened] using hform⟩
  | _ => simp [hopened] at hform

theorem check_of_required (hform : d.hasFields check = true) (h : d.required name = .ok v) :
    check (str name) v = true := by
  obtain ⟨entries, hopened, hall⟩ := exists_entries_of_hasFields hform
  unfold required at h
  rw [hopened] at h
  cases hv : lookup (str name) entries with
  | none => simp [hv] at h
  | some w =>
    obtain rfl : w = v := by simpa [hv] using h
    exact check_of_lookup hall hv

theorem check_fieldD (default : Document) (hform : d.hasFields check = true)
    (hdefault : check (str name) default = true) :
    check (str name) (d.fieldD name default) = true := by
  obtain ⟨entries, hopened, hall⟩ := exists_entries_of_hasFields hform
  unfold fieldD field?
  rw [hopened]
  dsimp only
  cases hv : lookup (str name) entries with
  | none => exact hdefault
  | some v => exact check_of_lookup hall hv

end Fields

theorem check_of_elements {check : Document → Bool} {d : Document} {things : List Document}
    (hform : d.isListOf check = true) (h : d.elements = .ok things) :
    ∀ thing ∈ things, check thing = true := by
  cases d <;> simp only [isListOf, Bool.false_eq_true] at hform
  cases h
  exact List.all_eq_true.mp hform

/-! ### Forms -/

/-- Whether a document has the form of a choice. -/
def isChoiceForm : Document → Bool := hasFields fun
  | str "id", id => id.isText
  | _, _ => true

/-- Whether a document has the form of a question. -/
def isQuestionForm : Document → Bool := hasFields fun
  | str "id", id => id.isText
  | str "options", options => options.isListOf isChoiceForm
  | str "branch_map", entries => entries.isTable
  | _, _ => true

mutual

/-- Whether a document has the form of a block. -/
def isBlockForm : Document → Bool
  | map entries => areBlockFields entries
  | _ => false

/-- Whether entries of a mapping may be those of a block. -/
def areBlockFields : List (Document × Document) → Bool
  | [] => true
  | (name, value) :: rest => isBlockField name value && areBlockFields rest

/-- Whether a value under a name may be a field of a block. -/
def isBlockField : Document → Document → Bool
  | str "id", id => id.isText
  | str "questions", questions => questions.isListOf isQuestionForm
  | str "sub_blocks", list items => areBlockForms items
  | str "sub_blocks", _ => false
  | _, _ => true

/-- Whether all documents of a list have the form of a block. -/
def areBlockForms : List Document → Bool
  | [] => true
  | d :: ds => d.isBlockForm && areBlockForms ds

end

/-- Whether a document has the form of a survey. -/
def isSurveyForm : Document → Bool := hasFields fun
  | str "blocks", blocks => blocks.isListOf isBlockForm
  | _, _ => true

theorem areBlockFields_eq (entries : List (Document × Document)) :
    areBlockFields entries = entries.all fun (name, value) => isBlockField name value := by
  induction entries with
  | nil => rfl
  | cons entry rest ih => rw [areBlockFields, ih, List.all_cons]

theorem areBlockForms_eq (ds : List Document) : areBlockForms ds = ds.all isBlockForm := by
  induction ds with
  | nil => rfl
  | cons d ds ih => rw [areBlockForms, ih, List.all_cons]

/-- A block is known by its fields. -/
theorem isBlockForm_eq (entries : List (Document × Document)) :
    (map entries).isBlockForm = (map entries).hasFields isBlockField := by
  rw [isBlockForm, areBlockFields_eq]
  rfl

theorem isBlockField_id (v : Document) : isBlockField (str "id") v = v.isText := by
  rw [isBlockField]

theorem isBlockField_questions (v : Document) :
    isBlockField (str "questions") v = v.isListOf isQuestionForm := by
  rw [isBlockField]

/-- The blocks under a block stand in a list. -/
theorem isBlockField_subBlocks {v : Document} (h : isBlockField (str "sub_blocks") v = true) :
    ∃ items, v = list items ∧ ∀ item ∈ items, item.isBlockForm = true := by
  cases v with
  | list items =>
    rw [isBlockField, areBlockForms_eq] at h
    exact ⟨items, rfl, List.all_eq_true.mp h⟩
  | _ => cases h

end Questionnaire.Document
