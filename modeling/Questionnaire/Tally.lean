/-
# Tallies

A tally says how often each of some things was counted. Its entries are in the
order in which the things were counted first.

Key definitions: `Tally.add`, `Tally.count`, `Tally.ofList`, `Tally.mostCommon`.
-/
import Questionnaire.Whole

namespace Questionnaire

/-- How often each of some things was counted. -/
abbrev Tally (α : Type) := List (α × Nat)

namespace Tally

variable {α : Type} [BEq α]

/-- How often a thing was counted. -/
def count (x : α) (t : Tally α) : Nat := (t.lookup x).getD 0

/-- Counts a thing once more. -/
def add (x : α) : Tally α → Tally α
  | [] => [(x, 1)]
  | (y, n) :: rest => if x == y then (y, n + 1) :: rest else (y, n) :: add x rest

/-- Counts the things of a list. -/
def addAll (xs : List α) (t : Tally α) : Tally α := xs.foldl (fun t x => t.add x) t

/-- The tally of a list. -/
def ofList (xs : List α) : Tally α := addAll xs []

/-- How often something was counted. -/
def total {α : Type} (t : Tally α) : Nat := sumOf (t.map (·.2))

/-- The entries by falling counts; those with equal counts in the order of first counts. -/
def mostCommon {α : Type} (t : Tally α) : Tally α := t.mergeSort fun a b => b.2 ≤ a.2

theorem mostCommon_perm {α : Type} (t : Tally α) : t.mostCommon.Perm t := List.mergeSort_perm _ _

theorem count_nil (y : α) : count y ([] : Tally α) = 0 := rfl

theorem count_cons (y z : α) (n : Nat) (t : Tally α) :
    count y ((z, n) :: t) = if y == z then n else count y t := by
  unfold count
  rw [List.lookup_cons]
  cases y == z <;> rfl

/-- Counting adds one to the total. -/
theorem total_add (x : α) (t : Tally α) : total (add x t) = total t + 1 := by
  induction t with
  | nil => rfl
  | cons entry rest ih =>
    obtain ⟨z, n⟩ := entry
    unfold add
    split
    · simp [total]; omega
    · simp only [total, List.map_cons, sumOf_cons] at ih ⊢; omega

end Tally

end Questionnaire
