/-
# Sums

The sum of a list is the library's, so sums are compared item by item. Pairs may
be counted by either side.

Key theorems: `sumOf_map_le`, `sumOf_map_eq_iff`, `sumOf_countP_comm`.
-/
import Mathlib.Algebra.Order.BigOperators.Group.List
import Mathlib.Algebra.Order.Ring.Nat
import Questionnaire.Whole

namespace Questionnaire

variable {α β : Type}

theorem sumOf_eq_sum (ns : List Nat) : sumOf ns = ns.sum := rfl

theorem sumOf_le {ms ns : List Nat} (h : List.Forall₂ (· ≤ ·) ms ns) : sumOf ms ≤ sumOf ns :=
  h.sum_le_sum

theorem sumOf_map_le {f g : α → Nat} {xs : List α} (h : ∀ x ∈ xs, f x ≤ g x) :
    sumOf (xs.map f) ≤ sumOf (xs.map g) :=
  List.sum_le_sum h

/-- Sums of items that are not greater are equal only if the items are. -/
theorem sumOf_map_eq_iff {f g : α → Nat} : ∀ {xs : List α}, (∀ x ∈ xs, f x ≤ g x) →
    (sumOf (xs.map f) = sumOf (xs.map g) ↔ ∀ x ∈ xs, f x = g x)
  | [], _ => by simp
  | x :: xs, h => by
    have hrest : ∀ y ∈ xs, f y ≤ g y := fun y hy => h y (List.mem_cons_of_mem x hy)
    have hle := sumOf_map_le hrest
    have hx := h x List.mem_cons_self
    simp only [List.map_cons, sumOf_cons, List.forall_mem_cons, ← sumOf_map_eq_iff hrest]
    omega

theorem sumOf_map_add (f g : α → Nat) (xs : List α) :
    sumOf (xs.map fun x => f x + g x) = sumOf (xs.map f) + sumOf (xs.map g) :=
  List.sum_map_add

theorem sumOf_filter_add (p : α → Bool) (f : α → Nat) (xs : List α) :
    sumOf ((xs.filter p).map f) + sumOf ((xs.filter (!p ·)).map f) = sumOf (xs.map f) := by
  induction xs with
  | nil => rfl
  | cons x xs ih =>
    cases hp : p x <;> simp [hp] <;> omega

/-- Pairs are counted by either side. -/
theorem sumOf_countP_comm (R : α → β → Bool) (xs : List α) (ys : List β) :
    sumOf (xs.map fun x => ys.countP (R x)) = sumOf (ys.map fun y => xs.countP (R · y)) := by
  induction xs with
  | nil => induction ys with
    | nil => rfl
    | cons y ys ih => simpa using ih
  | cons x xs ih =>
    have hx : sumOf (ys.map fun y => if R x y = true then 1 else 0) = ys.countP (R x) := by
      clear ih
      induction ys with
      | nil => rfl
      | cons y ys ih =>
        rw [List.map_cons, sumOf_cons, ih, List.countP_cons, Nat.add_comm]
    simp only [List.map_cons, sumOf_cons, List.countP_cons, sumOf_map_add, hx, ih]
    omega

end Questionnaire
