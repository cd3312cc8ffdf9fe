/-
# Choices that can be looked up

Choices are compared by value, and of two choices with the same value either
both can be looked up or none. One that can be looked up has the same value as
itself, also if there is a float that is no number in it. Among things that are
told apart by their values, a value leads to one thing only.

Key theorems: `Choice.isKey_of_beq`, `Choice.beq_self_of_isKey`, `eq_of_beq_of_apart`.
-/
import Mathlib.Data.List.Pairwise
import Questionnaire.Survey.Basic

namespace Questionnaire

section Apart

variable {α β : Type} [BEq β] {f : α → β} {xs : List α}

/-- Of things that are told apart, one alone has the value. -/
theorem eq_of_beq_of_apart
    (h : xs.Pairwise fun x y => (f x == f y) = false ∧ (f y == f x) = false) {x y : α}
    (hx : x ∈ xs) (hy : y ∈ xs) (hsame : (f x == f y) = true) : x = y := by
  by_contra hne
  have hsymm : Std.Symm fun x y : α => (f x == f y) = false ∧ (f y == f x) = false :=
    ⟨fun _ _ hapart => hapart.symm⟩
  rw [(h.forall hx hy hne).1] at hsame
  cases hsame

/-- Things that are told apart do not repeat if each has the same value as itself. -/
theorem nodup_of_apart (h : xs.Pairwise fun x y => (f x == f y) = false ∧ (f y == f x) = false)
    (hself : ∀ x ∈ xs, (f x == f x) = true) : xs.Nodup := by
  refine h.imp_of_mem fun {x y} hx _ hapart heq => ?_
  rw [← heq, hself x hx] at hapart
  cases hapart.1

end Apart

namespace Document

theorem isKey_of_same : ∀ {a b : Document}, a.same b = true → a.isKey = true → b.isKey = true
  | pair x y, b, h, hkey => by
    cases b <;> simp [same] at h
    rename_i x' y'
    simp only [isKey, Bool.and_eq_true] at hkey ⊢
    exact ⟨isKey_of_same h.1 hkey.1, isKey_of_same h.2 hkey.2⟩
  | list _, _, _, hkey | set _, _, _, hkey | map _, _, _, hkey | knot _ _, _, _, hkey
  | link _ _, _, _, hkey => by simp [isKey] at hkey
  | null, b, h, _ | bool _, b, h, _ | int _, b, h, _ | float _, b, h, _ | nan _, b, h, _
  | str _, b, h, _ | bytes _, b, h, _ | day _, b, h, _ | moment _, b, h, _ => by
    cases b <;> simp_all [same, isKey, sameNumber, number?]

theorem isKey_of_beq {a b : Document} (h : (a == b) = true) (hkey : a.isKey = true) :
    b.isKey = true := by
  cases a with
  | knot => simp [isKey] at hkey
  | _ => exact isKey_of_same h hkey

theorem float_beq_self_or_isNaN (x : Float) : (x == x || x.isNaN) = true := by
  change (x.toModel.unpack.compare x.toModel.unpack == some .eq || x.toModel.unpack.isNaN) = true
  cases x.toModel.unpack with
  | notANumber => rfl
  | infinity sign => cases sign <;> rfl
  | zero sign => rfl
  | finite sign mantissa exponent _ =>
    have hsame : (compare exponent exponent).then (compare mantissa mantissa) = .eq := by
      rw [@Std.ReflCmp.compare_self Int compare, @Std.ReflCmp.compare_self Nat compare]
      rfl
    cases sign with
    | positive =>
      change (some ((compare exponent exponent).then (compare mantissa mantissa)) == some .eq ||
        false) = true
      rw [hsame]
      rfl
    | negative =>
      change (some ((compare exponent exponent).then (compare mantissa mantissa)).swap ==
        some .eq || false) = true
      rw [hsame]
      rfl

theorem number_beq_self (n : Int) : (Number.int n == Number.int n) = true := by
  change (some (compare n n) == some .eq) = true
  rw [@Std.ReflCmp.compare_self Int compare]
  rfl

theorem same_self_of_isKey : ∀ {d : Document}, d.isKey = true → d.same d = true
  | null, _ => by simp [same]
  | bool b, _ => by simpa [same, sameNumber, number?] using number_beq_self _
  | int n, _ => by simpa [same, sameNumber, number?] using number_beq_self n
  | float x, _ => by simpa [same, sameNumber] using float_beq_self_or_isNaN x
  | nan m, _ | str m, _ | bytes m, _ | day m, _ => by simp [same]
  | moment m, _ => by simp [same, Moment.same]
  | pair a b, h => by
    simp only [isKey, Bool.and_eq_true] at h
    simp [same, same_self_of_isKey h.1, same_self_of_isKey h.2]
  | list _, h | set _, h | map _, h | knot _ _, h | link _ _, h => by simp [isKey] at h

theorem beq_self_of_isKey {d : Document} (h : d.isKey = true) : (d == d) = true := by
  cases d with
  | knot => simp [isKey] at h
  | _ => exact same_self_of_isKey h

end Document

theorem Choice.isKey_of_beq {c d : Choice} (h : (c == d) = true) (hkey : c.isKey = true) :
    d.isKey = true := by
  change (c.id == d.id && (c.text == d.text && c.row == d.row)) = true at h
  simp only [Bool.and_eq_true] at h
  simp only [isKey, Bool.and_eq_true] at hkey ⊢
  obtain ⟨hid, htext, hrow⟩ := h
  obtain ⟨⟨kid, ktext⟩, krow⟩ := hkey
  exact ⟨⟨Document.isKey_of_beq hid kid, Document.isKey_of_beq htext ktext⟩,
    Document.isKey_of_beq hrow krow⟩

theorem Choice.beq_self_of_isKey {c : Choice} (h : c.isKey = true) : (c == c) = true := by
  change (c.id == c.id && (c.text == c.text && c.row == c.row)) = true
  simp only [isKey, Bool.and_eq_true] at h
  obtain ⟨⟨hid, htext⟩, hrow⟩ := h
  simp [Document.beq_self_of_isKey hid, Document.beq_self_of_isKey htext,
    Document.beq_self_of_isKey hrow]

/-- A choice that leads to a block is the same as one that a branch is on. -/
theorem Question.branch_of_destination {q : Question} {c : Choice} {key : Key}
    (h : q.destination? c = some key) :
    ∃ branch ∈ q.branches, (c == branch.1) = true ∧ branch.2 = key := by
  rw [destination?, List.lookup_eq_findSome?] at h
  obtain ⟨branch, hbranch, hfound⟩ := List.exists_of_findSome?_eq_some h
  split at hfound
  · rename_i hsame
    exact ⟨branch, hbranch, hsame, Option.some.inj hfound⟩
  · cases hfound

end Questionnaire
