/-
# Documents without an order

Whether one document comes before another cannot be said if they are of the
wrong types, and this is all that can go wrong when documents are put in order.
Texts can always be.

Key theorems: `Document.less_eq_error`, `Document.sorted_eq_error`,
`Document.sorted_texts`.
-/
import Mathlib.Data.String.Basic
import Questionnaire.Document.Order
import Questionnaire.Proofs.Sorting

namespace Questionnaire.Document

/-- Documents have no order only if they are of the wrong types. -/
theorem less_eq_error {fault : Fault} (a b : Document) (h : a.less b = .error fault) :
    fault = .illTyped := by
  revert h
  apply less.induct (fun a b => a.less b = .error fault → fault = .illTyped)
    fun xs ys => lessItems xs ys = .error fault → fault = .illTyped
  all_goals
    intros
    simp_all [less, lessItems]

/-- Numbers have an order. -/
theorem less_of_numbers {a b : Document} (ha : a.number?.isSome = true)
    (hb : b.number?.isSome = true) : ∃ before, a.less b = .ok before := by
  cases a <;> cases b <;> simp_all [number?, less]

/-- Either list can be compared with the one in the middle, but the first with the last cannot. -/
example : sorted [.list [.int 1, .str "a"], .list [.int 2], .list [.int 1, .int 2]] =
    .error .illTyped := by cbv

/-- The text that a document is, and none for one that is no text. -/
def asText : Document → String
  | str t => t
  | _ => ""

/-- **Texts can be sorted, and come in the order of their characters.** -/
theorem sorted_texts {ds : List Document} (h : ∀ d ∈ ds, ∃ t, d = .str t) :
    ∃ found, sorted ds = .ok found ∧ OrderedBy asText ds found := by
  refine sortedBy_ordered fun a ha b hb => ?_
  obtain ⟨s, rfl⟩ := h a ha
  obtain ⟨t, rfl⟩ := h b hb
  rw [less]
  rfl

end Questionnaire.Document
