/-
# Floats are compared by value

A finite float stands for a rational number, which its bits show. Floats are
compared by sign, exponent and digits; because all digits are there unless the
exponent is the least one, that is the order of the rational numbers. Comparing
dyadic numbers, which `Number` does for a whole number and a float, is that order
as well, so both ways of comparing agree.

Key definitions: `Dyadic.value`, `Unpacked.value?`, `Unpacked.Canonical`.
Key theorems: `Dyadic.compare_eq_value`, `Unpacked.compare_eq_value`,
`Unpacked.value_unpack`.
-/
import Mathlib
import Questionnaire.Number

namespace Questionnaire

open Float.Model Float.Model.UnpackedFloat

namespace Dyadic

/-- The rational number. -/
def value (d : Dyadic) : ℚ := d.signed * 2 ^ d.exponent

theorem value_eq_scaled {d : Dyadic} {e : ℤ} (he : e ≤ d.exponent) :
    d.value = ((d.signed * (twoTo (d.exponent - e) : ℤ) : ℤ) : ℚ) * 2 ^ e := by
  obtain ⟨k, hk⟩ := Int.eq_ofNat_of_zero_le (Int.sub_nonneg.mpr he)
  have hexponent : d.exponent = k + e := by omega
  have hpower : twoTo k = 2 ^ k := rfl
  rw [value, hk, hpower, hexponent, zpow_add₀ (by norm_num), zpow_natCast]
  push_cast
  ring

theorem compare_eq_value (a b : Dyadic) : a.compare b = Ord.compare a.value b.value := by
  unfold Dyadic.compare
  dsimp only
  rw [value_eq_scaled (min_le_left a.exponent b.exponent),
    value_eq_scaled (min_le_right a.exponent b.exponent), ← cmp_eq_compare, ← cmp_eq_compare,
    cmp_mul_pos_right (by positivity), Int.cast_strictMono.cmp_map_eq]

@[simp] theorem value_ofInt (n : ℤ) : (ofInt n).value = n := by
  have hsigned : (ofInt n).signed = n := by
    simp only [signed, ofInt, decide_eq_true_eq]
    split <;> omega
  have hexponent : (ofInt n).exponent = 0 := rfl
  simp [value, hsigned, hexponent]

end Dyadic

namespace Unpacked

/-- The value of a number that is finite. -/
def value? : UnpackedFloat → Option ℚ
  | .finite s m e _ => some (s.apply m * 2 ^ e)
  | .zero _ => some 0
  | _ => none

/-- In the form that the bits of a float give: all digits are there unless the exponent is the
least one. -/
def Canonical : UnpackedFloat → Prop
  | .finite _ m e _ =>
    m < 2 ^ 53 ∧ Dyadic.leastExponent ≤ e ∧ (e = Dyadic.leastExponent ∨ 2 ^ 52 ≤ m)
  | _ => True

/-! ### Comparing -/

section

variable {m n : ℕ} {e f : ℤ}

/-- With all digits there, the greater exponent makes the greater value. -/
theorem lt_of_exponent_lt (hm : m < 2 ^ 53) (hn : 2 ^ 52 ≤ n) (h : e < f) :
    (m * 2 ^ e : ℚ) < n * 2 ^ f := by
  have hm : (m : ℚ) < 2 ^ 53 := by exact_mod_cast hm
  have hn : (2 : ℚ) ^ 52 ≤ n := by exact_mod_cast hn
  calc (m * 2 ^ e : ℚ) < 2 ^ 53 * 2 ^ e := by gcongr
    _ = 2 ^ 52 * 2 ^ (e + 1) := by rw [zpow_add₀ (by norm_num)]; ring
    _ ≤ 2 ^ 52 * 2 ^ f := by gcongr <;> [norm_num; omega]
    _ ≤ n * 2 ^ f := by gcongr

/-- Of two canonical numbers, the exponents decide, and of equal ones the digits. -/
theorem compare_magnitude {s t : Sign} {hm : 0 < m} {hn : 0 < n}
    (ha : Canonical (.finite s m e hm)) (hb : Canonical (.finite t n f hn)) :
    (compare e f).then (compare m n) = compare (m * 2 ^ e : ℚ) (n * 2 ^ f) := by
  obtain ⟨hmle, he, hme⟩ := ha
  obtain ⟨hnle, hf, hnf⟩ := hb
  rcases lt_trichotomy e f with hlt | rfl | hgt
  · have hall : 2 ^ 52 ≤ n := hnf.resolve_left (by omega)
    rw [compare_lt_iff_lt.mpr hlt, compare_lt_iff_lt.mpr (lt_of_exponent_lt hmle hall hlt)]
    rfl
  · rw [← cmp_eq_compare, ← cmp_eq_compare, ← cmp_eq_compare, cmp_self_eq_eq,
      cmp_mul_pos_right (by positivity), Nat.strictMono_cast.cmp_map_eq]
    rfl
  · have hall : 2 ^ 52 ≤ m := hme.resolve_left (by omega)
    rw [compare_gt_iff_gt.mpr hgt, compare_gt_iff_gt.mpr (lt_of_exponent_lt hnle hall hgt)]
    rfl

theorem compare_finite {s t : Sign} {hm : 0 < m} {hn : 0 < n}
    (ha : Canonical (.finite s m e hm)) (hb : Canonical (.finite t n f hn)) :
    UnpackedFloat.compare (.finite s m e hm) (.finite t n f hn) =
      some (compare (s.apply m * 2 ^ e : ℚ) (t.apply n * 2 ^ f)) := by
  have hmagnitude := compare_magnitude ha hb
  have hleft : (0 : ℚ) < m * 2 ^ e := by positivity
  have hright : (0 : ℚ) < n * 2 ^ f := by positivity
  cases s with
  | positive =>
    cases t with
    | positive => exact congrArg some hmagnitude
    | negative =>
      have hgt : ((-(n : ℤ) : ℤ) * 2 ^ f : ℚ) < ((m : ℤ) * 2 ^ e : ℚ) := by
        push_cast
        linarith
      exact congrArg some (compare_gt_iff_gt.mpr hgt).symm
  | negative =>
    cases t with
    | positive =>
      have hlt : ((-(m : ℤ) : ℤ) * 2 ^ e : ℚ) < ((n : ℤ) * 2 ^ f : ℚ) := by
        push_cast
        linarith
      exact congrArg some (compare_lt_iff_lt.mpr hlt).symm
    | negative =>
      have hswap : ((compare e f).then (compare m n)).swap =
          compare ((-(m : ℤ) : ℤ) * 2 ^ e : ℚ) ((-(n : ℤ) : ℤ) * 2 ^ f) := by
        rw [hmagnitude, ← cmp_eq_compare, ← cmp_eq_compare, cmp_swap]
        push_cast
        rw [neg_mul, neg_mul]
        exact (StrictAnti.cmp_map_eq (fun _ _ => neg_lt_neg) _ _).symm
      exact congrArg some hswap

theorem compare_zero_finite (s : Sign) {t : Sign} (hn : 0 < n) :
    UnpackedFloat.compare (.zero s) (.finite t n f hn) =
      some (compare 0 (t.apply n * 2 ^ f : ℚ)) := by
  have hpos : (0 : ℚ) < n * 2 ^ f := by positivity
  cases t with
  | positive => exact congrArg some (compare_lt_iff_lt.mpr (by simpa [Sign.apply] using hpos)).symm
  | negative => exact congrArg some (compare_gt_iff_gt.mpr (by simpa [Sign.apply] using hpos)).symm

theorem compare_finite_zero {s : Sign} (t : Sign) (hm : 0 < m) :
    UnpackedFloat.compare (.finite s m e hm) (.zero t) =
      some (compare (s.apply m * 2 ^ e : ℚ) 0) := by
  have hpos : (0 : ℚ) < m * 2 ^ e := by positivity
  cases s with
  | positive => exact congrArg some (compare_gt_iff_gt.mpr (by simpa [Sign.apply] using hpos)).symm
  | negative => exact congrArg some (compare_lt_iff_lt.mpr (by simpa [Sign.apply] using hpos)).symm

end

/-- **Finite floats are compared by value.** Comparing canonical numbers that are finite compares the
rational numbers that they are. -/
theorem compare_eq_value {a b : UnpackedFloat} {p q : ℚ} (ha : Canonical a) (hb : Canonical b)
    (hp : value? a = some p) (hq : value? b = some q) : a.compare b = some (compare p q) := by
  cases a with
  | infinity => cases hp
  | notANumber => cases hp
  | zero s =>
    cases hp
    cases b with
    | infinity => cases hq
    | notANumber => cases hq
    | zero t =>
      cases hq
      rfl
    | finite t n f hn =>
      cases hq
      exact compare_zero_finite s hn
  | finite s m e hm =>
    cases hp
    cases b with
    | infinity => cases hq
    | notANumber => cases hq
    | zero t =>
      cases hq
      exact compare_finite_zero t hm
    | finite t n f hn =>
      cases hq
      exact compare_finite ha hb

/-! ### The bits -/

/-- The sign that a bit stands for. -/
def signOf (bit : ℕ) : Sign := if bit = 0 then .positive else .negative

/-- The number that a sign, an exponent and the digits after the first stand for. -/
def ofFields (s : Sign) (scale fraction : ℕ) : UnpackedFloat :=
  if scale = 2047 then
    if fraction = 0 then .infinity s else .notANumber
  else if scale = 0 then
    if h : fraction = 0 then .zero s
    else .finite s fraction Dyadic.leastExponent (Nat.pos_of_ne_zero h)
  else .finite s (fraction + 2 ^ 52) (scale - 1075) (by positivity)

theorem apply_signOf {bit n : ℕ} (h : bit < 2) :
    (signOf bit).apply n = if bit == 1 then -(n : ℤ) else n := by
  interval_cases bit <;> rfl

theorem canonical_ofFields {s : Sign} {scale fraction : ℕ} (h : fraction < 2 ^ 52) :
    Canonical (ofFields s scale fraction) := by
  unfold ofFields
  split
  · split <;> trivial
  · split
    · split
      · trivial
      · exact ⟨by omega, le_rfl, .inl rfl⟩
    · exact ⟨by omega, by unfold Dyadic.leastExponent; omega, .inr (by omega)⟩

/-- The fields of a float are the upper bit, the next eleven and the lower ones. -/
theorem unpack_eq_ofFields (b : BitVec 64) : unpack Format.binary64 b =
    ofFields (signOf (b.toNat / 2 ^ 63)) (b.toNat / 2 ^ 52 % 2 ^ 11) (b.toNat % 2 ^ 52) := by
  have hfraction : (@unpackMantissa .binary64 b).toNat = b.toNat % 2 ^ 52 := by
    simp [unpackMantissa]
  have hscale : (@unpackExponent .binary64 b).toNat =
      b.toNat / 2 ^ 52 % 2 ^ 11 := by
    simp [unpackExponent, Nat.shiftRight_eq_div_pow]
  have hbit : (@unpackSign .binary64 b).toNat = b.toNat / 2 ^ 63 := by
    have hb : b.toNat < 2 ^ 64 := b.isLt
    simp only [unpackSign, BitVec.toNat_cast, BitVec.extractLsb_toNat, Nat.shiftRight_eq_div_pow]
    omega
  have hsign : Sign.ofBitVec (@unpackSign .binary64 b) =
      signOf (b.toNat / 2 ^ 63) := by
    rw [← hbit]
    simp [Sign.ofBitVec, signOf, ← BitVec.toNat_inj]
  have hones : @unpackExponent .binary64 b = -1#11 ↔
      b.toNat / 2 ^ 52 % 2 ^ 11 = 2047 := by
    rw [← hscale, ← BitVec.toNat_inj]
    rfl
  have hzeros : @unpackExponent .binary64 b = 0#11 ↔
      b.toNat / 2 ^ 52 % 2 ^ 11 = 0 := by
    rw [← hscale, ← BitVec.toNat_inj]
    rfl
  have hnone : @unpackMantissa .binary64 b = 0#52 ↔ b.toNat % 2 ^ 52 = 0 := by
    rw [← hfraction, ← BitVec.toNat_inj]
    rfl
  have hfirst : (1#1 ++ @unpackMantissa .binary64 b).toNat =
      b.toNat % 2 ^ 52 + 2 ^ 52 := by
    rw [BitVec.toNat_append, ← Nat.shiftLeft_add_eq_or_of_lt (BitVec.isLt _), hfraction,
      Nat.shiftLeft_eq]
    exact Nat.add_comm _ _
  unfold UnpackedFloat.unpack ofFields
  dsimp only
  rw [hsign]
  simp only [hones, hzeros, hnone, hfraction, hscale, hfirst]
  split
  · rfl
  · split
    · rename_i hleast
      simp only [hleast]
      rfl
    · rfl

theorem canonical_unpack (x : Float.Model) : Canonical x.unpack := by
  unfold Float.Model.unpack
  rw [unpack_eq_ofFields]
  exact canonical_ofFields (Nat.mod_lt _ (by norm_num))

/-- The bits of a float give its value as a dyadic number. -/
theorem value_unpack (x : Float) :
    value? x.toModel.unpack = (Dyadic.ofFloat? x).map Dyadic.value := by
  have hbit : x.toBits.toNat / 2 ^ 63 < 2 := by
    have hbits : x.toBits.toNat < 2 ^ 64 := x.toBits.toNat_lt
    omega
  have hunpack : x.toModel.unpack = ofFields (signOf (x.toBits.toNat / 2 ^ 63))
      (x.toBits.toNat / 2 ^ 52 % 2 ^ 11) (x.toBits.toNat % 2 ^ 52) := unpack_eq_ofFields _
  have hvalue (m : ℕ) (e : ℤ) : (⟨x.toBits.toNat / 2 ^ 63 == 1, m, e⟩ : Dyadic).value =
      (signOf (x.toBits.toNat / 2 ^ 63)).apply m * 2 ^ e := by
    rw [apply_signOf hbit]
    rfl
  have hsign : twoTo 63 = 2 ^ 63 := rfl
  have hfraction : twoTo 52 = 2 ^ 52 := rfl
  have hscale : twoTo 11 = 2 ^ 11 := rfl
  rw [hunpack]
  unfold Dyadic.ofFloat? ofFields
  dsimp only
  rw [hsign, hfraction, hscale]
  simp only [beq_iff_eq]
  split
  · split <;> rfl
  · split
    · split
      · rename_i hnone
        rw [hnone]
        refine congrArg some ?_
        simp [Dyadic.value, Dyadic.signed]
      · exact congrArg some (hvalue ..).symm
    · exact congrArg some (hvalue ..).symm

end Unpacked

end Questionnaire
