/-
# Equal differences

Differences are equal in either order, and those that equal a third one are
equal. A difference equals itself unless it is a float that is no number.

Key theorems: `PartialEquivBEq Number`, `PartialEquivBEq Document.Difference`,
`Document.minus_whole`.
-/
import Questionnaire.Document.Difference
import Questionnaire.Proofs.Document.Key

namespace Questionnaire

instance : PartialEquivBEq Number where
  symm {a b} h := by
    obtain ⟨v, ha, hb⟩ := (Number.beq_iff a b).mp h
    exact (Number.beq_iff b a).mpr ⟨v, hb, ha⟩
  trans {a b c} hab hbc := by
    obtain ⟨v, ha, hb⟩ := (Number.beq_iff a b).mp hab
    obtain ⟨w, hb', hc⟩ := (Number.beq_iff b c).mp hbc
    cases hb.symm.trans hb'
    exact (Number.beq_iff a c).mpr ⟨v, ha, hc⟩

namespace Document

theorem Member.beq_iff (a b : Member) :
    (a == b) = true ↔ a.document.keyValue = b.document.keyValue := beq_iff_keyValue b.fit

instance : PartialEquivBEq Member where
  symm {a b} h := (Member.beq_iff b a).mpr ((Member.beq_iff a b).mp h).symm
  trans {a b c} hab hbc :=
    (Member.beq_iff a c).mpr (((Member.beq_iff a b).mp hab).trans ((Member.beq_iff b c).mp hbc))

namespace Difference

theorem number_beq_iff {m : Number} {d : Difference} :
    (number m == d) = true ↔ ∃ n, d = number n ∧ (m == n) = true := by
  constructor
  · intro h
    cases d with
    | number n => exact ⟨n, rfl, h⟩
    | span _ | members _ => cases h
  · rintro ⟨n, rfl, h⟩
    exact h

theorem span_beq_iff {m : Int} {d : Difference} : (span m == d) = true ↔ d = span m := by
  constructor
  · intro h
    cases d with
    | span n => rw [show m = n from beq_iff_eq.mp h]
    | number _ | members _ => cases h
  · rintro rfl
    exact beq_self_eq_true m

/-- Sets of members are equal if each member of either is one of the other. -/
theorem members_beq_iff {ms : List Member} {d : Difference} :
    (members ms == d) = true ↔ ∃ ns, d = members ns ∧
      (∀ m ∈ ms, ∃ n ∈ ns, (m == n) = true) ∧ ∀ n ∈ ns, ∃ m ∈ ms, (n == m) = true := by
  have heach (ns : List Member) : (members ms == members ns) = true ↔
      (∀ m ∈ ms, ∃ n ∈ ns, (m == n) = true) ∧ ∀ n ∈ ns, ∃ m ∈ ms, (n == m) = true := by
    change (ms.all ns.contains && ns.all ms.contains) = true ↔ _
    simp only [Bool.and_eq_true, List.all_eq_true, List.contains_iff_exists_mem_beq]
  constructor
  · intro h
    cases d with
    | members ns => exact ⟨ns, rfl, (heach ns).mp h⟩
    | number _ | span _ => cases h
  · rintro ⟨ns, rfl, h⟩
    exact (heach ns).mpr h

instance : PartialEquivBEq Difference where
  symm {a b} h := by
    cases a with
    | number m =>
      obtain ⟨n, rfl, hmn⟩ := number_beq_iff.mp h
      exact number_beq_iff.mpr ⟨m, rfl, BEq.symm hmn⟩
    | span m =>
      rw [span_beq_iff.mp h]
      exact span_beq_iff.mpr rfl
    | members ms =>
      obtain ⟨ns, rfl, hboth⟩ := members_beq_iff.mp h
      exact members_beq_iff.mpr ⟨ms, rfl, hboth.symm⟩
  trans {a b c} hab hbc := by
    cases a with
    | number m =>
      obtain ⟨n, rfl, hmn⟩ := number_beq_iff.mp hab
      obtain ⟨k, rfl, hnk⟩ := number_beq_iff.mp hbc
      exact number_beq_iff.mpr ⟨k, rfl, BEq.trans hmn hnk⟩
    | span m => rwa [span_beq_iff.mp hab] at hbc
    | members ms =>
      obtain ⟨ns, rfl, hmn, hnm⟩ := members_beq_iff.mp hab
      obtain ⟨ks, rfl, hnk, hkn⟩ := members_beq_iff.mp hbc
      refine members_beq_iff.mpr ⟨ks, rfl, fun m hm => ?_, fun k hk => ?_⟩
      · obtain ⟨n, hn, h⟩ := hmn m hm
        obtain ⟨k, hk, h'⟩ := hnk n hn
        exact ⟨k, hk, BEq.trans h h'⟩
      · obtain ⟨n, hn, h⟩ := hkn k hk
        obtain ⟨m, hm, h'⟩ := hnm n hn
        exact ⟨m, hm, BEq.trans h h'⟩

end Difference

/-- Whole numbers have a difference. -/
theorem minus_whole (m n : Int) : (int m).minus (int n) = .ok (.number (.int (m - n))) := rfl

end Document

end Questionnaire
