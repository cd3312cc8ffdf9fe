/-
# How much is drawn, and what

Every draw of a number takes one step of the generator, so what is drawn for
several items is counted by the steps. A position that is drawn is one of those
to choose from, also if it is drawn by weights. No word is lost in scrambling,
so some generator draws each number.

Key definition: `Gen.after`.
Key theorems: `Gen.length_times`, `Gen.forall_mem_times`, `Gen.times_after`,
`Gen.weighted_lt`, `Gen.exists_below`.
-/
import Questionnaire.Random

namespace Questionnaire.Gen

variable {α : Type} {draw : Draw α}

/-- The generator after so many numbers were drawn. -/
def after (g : Gen) : Nat → Gen
  | 0 => g
  | n + 1 => g.next.after n

theorem after_add (g : Gen) (m n : Nat) : g.after (m + n) = (g.after m).after n := by
  induction m generalizing g with
  | zero => rw [Nat.zero_add, after]
  | succ m ih => rw [Nat.succ_add, after, after, ih]

theorem length_times (draw : Draw α) : ∀ (n : Nat) (g : Gen), (times draw n g).1.length = n
  | 0, _ => rfl
  | n + 1, g => by
    rw [times]
    exact congrArg (· + 1) (length_times draw n _)

/-- What holds of each draw holds of all results. -/
theorem forall_mem_times {P : α → Prop} (h : ∀ g, P (draw g).1) :
    ∀ (n : Nat) (g : Gen), ∀ x ∈ (times draw n g).1, P x
  | 0, _, x, hx => by simp [times] at hx
  | n + 1, g, x, hx => by
    rw [times] at hx
    rcases List.mem_cons.mp hx with rfl | hlater
    · exact h g
    · exact forall_mem_times h n _ x hlater

/-- If each draw takes `k` numbers, `n` draws take `n * k`. -/
theorem times_after {k : Nat} (h : ∀ g, (draw g).2 = g.after k) :
    ∀ (n : Nat) (g : Gen), (times draw n g).2 = g.after (n * k)
  | 0, g => by rw [Nat.zero_mul]; rfl
  | n + 1, g =>
    calc (times draw (n + 1) g).2 = (times draw n (draw g).2).2 := rfl
      _ = (draw g).2.after (n * k) := times_after h n _
      _ = (g.after k).after (n * k) := by rw [h]
      _ = g.after ((n + 1) * k) := by rw [← after_add, Nat.succ_mul, Nat.add_comm]

theorem below_lt {n : Nat} (hn : 0 < n) (g : Gen) : (g.below n).1 < n := Nat.mod_lt _ hn

theorem lt_of_reach {u : Float} : ∀ {weights : List Float} {acc : Float} {i j : Nat},
    reach u acc i weights = some j → j < i + weights.length
  | w :: weights, acc, i, j, h => by
    rw [reach] at h
    rw [List.length_cons]
    split at h
    · cases h
      omega
    · have := lt_of_reach h
      omega

theorem lastPositive_lt {weights : List Float} (h : 0 < weights.length) :
    lastPositive weights < weights.length := by
  unfold lastPositive
  generalize hlast : List.getLast? _ = last
  cases last with
  | none => exact h
  | some i =>
    obtain ⟨⟨w, i⟩, hpair, rfl⟩ := List.mem_map.mp (List.mem_of_getLast? hlast)
    simpa using (List.mem_zipIdx (List.mem_filter.mp hpair).1).2.1

/-- A position drawn by weights is one of those that have weights. -/
theorem weighted_lt {n : Nat} (hn : 0 < n) {weights : List Float} {g g' : Gen} {i : Nat}
    (h : weighted n weights g = .ok (i, g')) : i < n := by
  unfold weighted at h
  split at h
  · rename_i hweights
    have hlength : weights.length = n := by
      simp only [areWeights, Bool.and_eq_true, beq_iff_eq] at hweights
      exact hweights.1.1
    have hplace : i = (reach g.unit.1 0.0 0 weights).getD (lastPositive weights) := by
      cases h
      rfl
    rw [hplace, ← hlength]
    cases hreach : reach g.unit.1 0.0 0 weights with
    | none => exact lastPositive_lt (hlength ▸ hn)
    | some j => simpa using lt_of_reach hreach
  · cases h

/-! ### Every number is drawn -/

/-- A word can be found again after it was mixed with its own upper bits. -/
theorem xor_shifted_eq {x : BitVec 64} {k : Nat} (hk : 64 ≤ 3 * k) :
    (x ^^^ (x >>> k) ^^^ (x >>> (k + k))) ^^^ ((x ^^^ (x >>> k) ^^^ (x >>> (k + k))) >>> k) = x := by
  ext i hi
  have hfar : x.getLsbD (k + (k + (k + i))) = false := BitVec.getLsbD_of_ge x _ (by omega)
  simp only [BitVec.getElem_xor, BitVec.getElem_ushiftRight, BitVec.getLsbD_xor,
    BitVec.getLsbD_ushiftRight, Nat.add_assoc, hfar]
  cases x[i] <;> cases x.getLsbD (k + i) <;> cases x.getLsbD (k + (k + i)) <;> rfl

theorem exists_xor_shifted {k : UInt64} (hk : 64 ≤ 3 * (k.toNat % 64)) (w : UInt64) :
    ∃ z, z ^^^ (z >>> k) = w := by
  refine ⟨w ^^^ (w >>> k) ^^^ ((w >>> k) >>> k), UInt64.eq_of_toBitVec_eq ?_⟩
  simp only [UInt64.toBitVec_xor, UInt64.toBitVec_shiftRight, BitVec.ushiftRight_eq',
    ← BitVec.shiftRight_add]
  exact xor_shifted_eq (by simpa using hk)

theorem exists_mul {a b : UInt64} (hab : a * b = 1) (w : UInt64) : ∃ z, a * z = w :=
  ⟨b * w, by rw [← UInt64.mul_assoc, hab, UInt64.one_mul]⟩

/-- Each step of scrambling can be undone: the factors are odd, and they have inverses. -/
theorem exists_scramble (w : UInt64) : ∃ z, scramble z = w := by
  obtain ⟨last, hlast⟩ := exists_xor_shifted (k := 31) (by decide) w
  obtain ⟨product, hproduct⟩ :=
    exists_mul (show (0x94D049BB133111EB : UInt64) * 0x319642B2D24D8EC3 = 1 by decide) last
  obtain ⟨mixed, hmixed⟩ := exists_xor_shifted (k := 27) (by decide) product
  obtain ⟨factor, hfactor⟩ :=
    exists_mul (show (0xBF58476D1CE4E5B9 : UInt64) * 0x96DE1B173F119089 = 1 by decide) mixed
  obtain ⟨first, hfirst⟩ := exists_xor_shifted (k := 30) (by decide) factor
  exact ⟨first, by simp only [scramble, hfirst, hfactor, hmixed, hproduct, hlast]⟩

theorem exists_word (w : UInt64) : ∃ g : Gen, g.word.1 = w := by
  obtain ⟨z, hz⟩ := exists_scramble w
  refine ⟨⟨z - 0x9E3779B97F4A7C15⟩, ?_⟩
  rw [word, next, UInt64.add_comm, UInt64.sub_add_cancel, hz]

/-- **Each number that may be drawn is drawn** by some generator. -/
theorem exists_below {n i : Nat} (hn : n ≤ UInt64.size) (hi : i < n) :
    ∃ g : Gen, (g.below n).1 = i := by
  obtain ⟨g, hg⟩ := exists_word (UInt64.ofNat i)
  refine ⟨g, ?_⟩
  rw [below, hg, UInt64.toNat_ofNat_of_lt' (Nat.lt_of_lt_of_le hi hn), Nat.mod_eq_of_lt hi]

end Questionnaire.Gen
