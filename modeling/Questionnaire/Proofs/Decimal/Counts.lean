/-
# Counts are floats

A whole number below `2 ^ 53` has few enough digits for a float: it is shifted up
until all digits are there, and neither rounding it nor multiplying it by one
changes it. So a count may be compared as a whole number or as a float.

Key theorems: `Unpacked.unpack_pack`, `Unpacked.value_ofNat`, `Number.blt_ofNat`.
-/
import Questionnaire.Proofs.Decimal.Value

namespace Questionnaire

open Float.Model Float.Model.UnpackedFloat

namespace Unpacked

/-! ### Rounding what needs none -/

theorem shiftRight_mul_two_pow (m j : ℕ) :
    (⟨m * 2 ^ j, false, false⟩ : ExtendedMantissa) >>> j = ⟨m, false, false⟩ := by
  change j.repeat ExtendedMantissa.shiftRightOne _ = _
  induction j generalizing m with
  | zero => simp [Nat.repeat]
  | succ j ih =>
    have hdouble : m * 2 ^ (j + 1) = 2 * m * 2 ^ j := by ring
    rw [Nat.repeat, hdouble, ih]
    simp [ExtendedMantissa.shiftRightOne]

section

variable {m : ℕ} {e : ℤ} (hm : 2 ^ 52 ≤ m) (hm' : m < 2 ^ 53) (he : Dyadic.leastExponent ≤ e)
include hm hm' he

/-- Zeros behind all digits are shifted out. -/
theorem shiftToTargetExponent_mul_two_pow (j : ℕ) :
    shiftToTargetExponent Format.binary64 (m * 2 ^ j) (e - j) .exact =
      (⟨m, false, false⟩, e) := by
  have hlog : (m * 2 ^ j).log2 = 52 + j := by
    rw [Nat.log2_eq_iff (by positivity), Nat.add_right_comm, pow_add, pow_add]
    exact ⟨by gcongr, by gcongr⟩
  have htarget : Format.binary64.targetExponent (totalExponent (m * 2 ^ j) (e - j)) = e := by
    have hleast : Format.binary64.minExponent = Dyadic.leastExponent := rfl
    have hdigits : Format.binary64.mantissaBits = 53 := rfl
    rw [Format.targetExponent, totalExponent, hlog, hleast, hdigits]
    omega
  have hamount : (e - (e - j)).toNat = j := by omega
  unfold shiftToTargetExponent shiftToExponent
  dsimp only
  rw [htarget, hamount, ExtendedMantissa.ofMantissaAndAccuracy, shiftRight_mul_two_pow,
    sub_add_cancel]

theorem roundWithAccuracy_mul_two_pow (s : Sign) (j : ℕ) :
    roundWithAccuracy Format.binary64 s (m * 2 ^ j) (e - j) .exact =
      .finite s m e (by omega) := by
  have hagain := shiftToTargetExponent_mul_two_pow hm hm' he 0
  have hpos : m ≠ 0 := by omega
  simp only [pow_zero, mul_one, Nat.cast_zero, sub_zero] at hagain
  unfold roundWithAccuracy
  rw [shiftToTargetExponent_mul_two_pow hm hm' he j]
  dsimp only [ExtendedMantissa.roundedMantissa, ExtendedMantissa.accuracy,
    Accuracy.roundToNearestEven]
  rw [hagain]
  exact dif_neg hpos

omit he in
theorem toNat_pack (s : Sign) (he' : e ≤ 971) :
    (UnpackedFloat.pack Format.binary64 (.finite s m e (by omega))).toNat =
      s.toBitVec.toNat * 2 ^ 63 + (e + 1075).toNat * 2 ^ 52 + (m - 2 ^ 52) := by
  have hlog : m.log2 = 52 := (Nat.log2_eq_iff (by omega)).mpr ⟨hm, hm'⟩
  have hleast : Dyadic.leastExponent = -1074 := rfl
  have hpack : UnpackedFloat.pack Format.binary64 (.finite s m e (by omega)) =
      s.toBitVec ++ BitVec.ofNat 11 (e + 1075).toNat ++ BitVec.ofNat 52 m := by
    have hbias : (Format.binary64.exponentBias : ℤ) = 1023 := rfl
    have hdigits : Format.binary64.mantissaBits = 53 := rfl
    have hsum : e + 1023 + (52 : ℕ) = e + 1075 := by omega
    unfold UnpackedFloat.pack
    dsimp only
    rw [hbias, hsum, hlog, hdigits, if_neg (by omega), if_pos rfl]
    rfl
  have hfraction : m % 2 ^ 52 = m - 2 ^ 52 := by omega
  rw [hpack, BitVec.toNat_append, BitVec.toNat_append,
    ← Nat.shiftLeft_add_eq_or_of_lt (BitVec.isLt _),
    ← Nat.shiftLeft_add_eq_or_of_lt (BitVec.isLt _), BitVec.toNat_ofNat, BitVec.toNat_ofNat,
    hfraction, Nat.mod_eq_of_lt (by omega), Nat.shiftLeft_eq, Nat.shiftLeft_eq]
  ring

/-- A number with all digits is what its bits stand for. -/
theorem unpack_pack (s : Sign) (he' : e ≤ 971) :
    (Float.Model.pack (.finite s m e (by omega))).unpack = .finite s m e (by omega) := by
  have hleast : Dyadic.leastExponent = -1074 := rfl
  have hbit : s.toBitVec.toNat < 2 := BitVec.isLt _
  have hsign : signOf s.toBitVec.toNat = s := by cases s <;> rfl
  change unpack Format.binary64 (UnpackedFloat.pack Format.binary64 _) = _
  rw [unpack_eq_ofFields, toNat_pack hm hm' s he']
  have hupper : (s.toBitVec.toNat * 2 ^ 63 + (e + 1075).toNat * 2 ^ 52 + (m - 2 ^ 52)) / 2 ^ 63 =
      s.toBitVec.toNat := by omega
  have hscale : (s.toBitVec.toNat * 2 ^ 63 + (e + 1075).toNat * 2 ^ 52 + (m - 2 ^ 52)) / 2 ^ 52 %
      2 ^ 11 = (e + 1075).toNat := by omega
  have hlower : (s.toBitVec.toNat * 2 ^ 63 + (e + 1075).toNat * 2 ^ 52 + (m - 2 ^ 52)) % 2 ^ 52 =
      m - 2 ^ 52 := by omega
  rw [hupper, hscale, hlower, hsign]
  unfold ofFields
  rw [if_neg (by omega), if_neg (by omega), UnpackedFloat.finite.injEq]
  exact ⟨rfl, by omega, by omega⟩

end

/-! ### Counts -/

section

variable {n k : ℕ} (hk : 52 = n.log2 + k) (hm : 2 ^ 52 ≤ n * 2 ^ k) (hm' : n * 2 ^ k < 2 ^ 53)
include hk hm hm'

/-- A whole number of few digits is shifted up until all are there. -/
theorem ofNat_eq_shifted : UnpackedFloat.ofNat Format.binary64 n =
    .finite .positive (n * 2 ^ k) (-k) (by omega) := by
  have hpos : 0 < n := Nat.pos_of_ne_zero (by rintro rfl; omega)
  have hleast : Dyadic.leastExponent ≤ -(k : ℤ) := by
    unfold Dyadic.leastExponent
    omega
  have htarget : Format.binary64.targetExponent (totalExponent n 0) = -k := by
    have hminimum : Format.binary64.minExponent = Dyadic.leastExponent := rfl
    have hdigits : Format.binary64.mantissaBits = 53 := rfl
    rw [Format.targetExponent, totalExponent, hminimum, hdigits]
    omega
  have hamount : (0 - -(k : ℤ)).toNat = k := by omega
  have hround := roundWithAccuracy_mul_two_pow hm hm' hleast .positive 0
  simp only [pow_zero, mul_one, Nat.cast_zero, sub_zero] at hround
  unfold UnpackedFloat.ofNat UnpackedFloat.ofInt UnpackedFloat.normalize
  rw [compare_gt_iff_gt.mpr (by omega)]
  change UnpackedFloat.round Format.binary64 .positive n 0 = _
  unfold UnpackedFloat.round decreaseExponent
  dsimp only
  rw [htarget, hamount, Nat.shiftLeft_eq, zero_sub]
  exact hround

theorem unpack_ofNat :
    (Float.ofNat n).toModel.unpack = .finite .positive (n * 2 ^ k) (-k) (by omega) := by
  have hsmall : n < 2 ^ 53 := lt_of_le_of_lt (Nat.le_mul_of_pos_right n (by positivity)) hm'
  have hleast : Dyadic.leastExponent ≤ -(k : ℤ) := by
    unfold Dyadic.leastExponent
    omega
  have hword : n.toUInt64.toFloat.toModel.unpack =
      .finite .positive (n * 2 ^ k) (-k) (by omega) := by
    have hsame : n.toUInt64.toNat = n := Nat.mod_eq_of_lt (by omega)
    change (Float.Model.pack (UnpackedFloat.ofNat Format.binary64 n.toUInt64.toNat)).unpack = _
    rw [hsame, ofNat_eq_shifted hk hm hm']
    exact unpack_pack hm hm' hleast .positive (by omega)
  have hone : (Float.exactlyRepresentablePowersOfTen[0]).toModel.unpack =
      .finite .positive (2 ^ 52) (-52) (by decide) := rfl
  -- a number in decimals is multiplied by a power of ten, here by one
  have hproduct : Float.ofNat n =
      n.toUInt64.toFloat * Float.exactlyRepresentablePowersOfTen[0] :=
    dif_pos ⟨hsmall, by decide⟩
  have hmul : UnpackedFloat.mul Format.binary64 (.finite .positive (n * 2 ^ k) (-k) (by omega))
      (.finite .positive (2 ^ 52) (-52) (by decide)) =
        .finite .positive (n * 2 ^ k) (-k) (by omega) :=
    roundWithAccuracy_mul_two_pow hm hm' hleast .positive 52
  rw [hproduct]
  change (Float.Model.pack (UnpackedFloat.mul Format.binary64
    n.toUInt64.toFloat.toModel.unpack _)).unpack = _
  rw [hword, hone, hmul]
  exact unpack_pack hm hm' hleast .positive (by omega)

end

/-- **Counts are floats.** The float of a whole number below `2 ^ 53` has its value. -/
theorem value_ofNat {n : ℕ} (hn : n < 2 ^ 53) :
    value? (Float.ofNat n).toModel.unpack = some ↑n := by
  rcases Nat.eq_zero_or_pos n with rfl | hpos
  · rfl
  have hlog : n.log2 < 53 := (Nat.log2_lt (by omega)).mpr hn
  obtain ⟨k, hk⟩ := Nat.exists_eq_add_of_le (Nat.le_of_lt_succ hlog)
  have hm : 2 ^ 52 ≤ n * 2 ^ k := by
    rw [hk, pow_add]
    gcongr
    exact Nat.log2_self_le (by omega)
  have hm' : n * 2 ^ k < 2 ^ 53 := by
    have hdigits : 53 = n.log2 + 1 + k := by omega
    rw [hdigits, pow_add]
    gcongr
    exact Nat.lt_log2_self
  rw [unpack_ofNat hk hm hm']
  refine congrArg some ?_
  simp [Sign.apply]

/-! ### Comparing with a count -/

theorem isNaN_of_value {a : UnpackedFloat} {p : ℚ} (h : value? a = some p) : a.isNaN = false := by
  cases a <;> first | rfl | cases h

theorem isInf_of_value {a : UnpackedFloat} {p : ℚ} (h : value? a = some p) : a.isInf = false := by
  cases a <;> first | rfl | cases h

/-- An infinity is on the same side of all finite numbers. -/
theorem compare_infinity {a : UnpackedFloat} {p : ℚ} (h : value? a = some p) (s : Sign) :
    UnpackedFloat.compare (.infinity s) a = some (compare (s.apply 1) 0) := by
  cases a with
  | infinity => cases h
  | notANumber => cases h
  | zero => cases s <;> rfl
  | finite => cases s <;> rfl

end Unpacked

namespace Number

theorem lt_iff_compare (x y : Float) :
    x < y ↔ x.toModel.unpack.compare y.toModel.unpack = some .lt := by
  change decide (x.toModel < y.toModel) = true ↔ _
  rw [decide_eq_true_iff]
  exact beq_iff_eq

theorem blt_float (x y : Float) :
    (float x).blt (float y) = (x.toModel.unpack.compare y.toModel.unpack == some .lt) := by
  have hlt : (x.toModel.unpack.compare y.toModel.unpack == some .lt) = decide (x < y) := by
    rw [Bool.eq_iff_iff, beq_iff_eq, decide_eq_true_iff, lt_iff_compare]
  rw [hlt]
  unfold blt compare?
  by_cases h : x < y
  · simp [h]
  · simp only [h, if_false, decide_false]
    split
    · rfl
    · split <;> rfl

/-- A finite number and a whole one are compared by value. -/
theorem compare?_float_int {x : Float} {p : ℚ} (hx : Unpacked.value? x.toModel.unpack = some p)
    (n : ℤ) : compare? (.float x) (.int n) = some (compare p n) := by
  have hnan : x.isNaN = false := Unpacked.isNaN_of_value hx
  have hinf : x.isInf = false := Unpacked.isInf_of_value hx
  obtain ⟨d, hd, hp⟩ := Option.map_eq_some_iff.mp ((Unpacked.value_unpack x).symm.trans hx)
  simp only [compare?, hnan, hinf, hd, Option.map_some, Dyadic.compare_eq_value, hp,
    Dyadic.value_ofInt]
  rfl

section

variable {n : ℕ} (hn : n < 2 ^ 53)
include hn

theorem blt_ofNat_of_float (x : Float) :
    (float x).blt (.float (.ofNat n)) = (float x).blt (.int n) := by
  have hvalue := Unpacked.value_ofNat hn
  generalize Float.ofNat n = y at hvalue
  have hfinite {p : ℚ} (hx : Unpacked.value? x.toModel.unpack = some p) :
      (float x).blt (.float y) = (float x).blt (.int n) := by
    rw [blt_float, Unpacked.compare_eq_value (Unpacked.canonical_unpack _)
      (Unpacked.canonical_unpack _) hx hvalue, blt, compare?_float_int hx]
    rfl
  cases hx : x.toModel.unpack with
  | notANumber =>
    have hnan : x.isNaN = true := congrArg UnpackedFloat.isNaN hx
    rw [blt_float, hx]
    simp only [blt, compare?, hnan]
    rfl
  | infinity s =>
    have hzero : Unpacked.value? (0 : Float).toModel.unpack = some 0 := rfl
    have hnan : x.isNaN = false := congrArg UnpackedFloat.isNaN hx
    have hinf : x.isInf = true := congrArg UnpackedFloat.isInf hx
    have hbelow : x.toModel.unpack.compare y.toModel.unpack = some .lt ↔ x < 0 := by
      rw [lt_iff_compare, hx, Unpacked.compare_infinity hvalue, Unpacked.compare_infinity hzero]
    rw [blt_float]
    simp only [blt, compare?, hnan, hinf]
    by_cases h : x < 0 <;> simp [h, hbelow]
  | zero => exact hfinite (congrArg Unpacked.value? hx)
  | finite => exact hfinite (congrArg Unpacked.value? hx)

/-- **A count may be compared as a float.** Below `2 ^ 53` the float of a count is above the same
numbers as the count. -/
theorem blt_ofNat (t : Number) : t.blt (.float (.ofNat n)) = t.blt (.int n) := by
  cases t with
  | float x => exact blt_ofNat_of_float hn x
  | int m =>
    have hvalue := Unpacked.value_ofNat hn
    have hnan : (Float.ofNat n).isNaN = false := Unpacked.isNaN_of_value hvalue
    have hinf : (Float.ofNat n).isInf = false := Unpacked.isInf_of_value hvalue
    obtain ⟨d, hd, hn⟩ := Option.map_eq_some_iff.mp ((Unpacked.value_unpack _).symm.trans hvalue)
    have hcompare : (Dyadic.ofInt m).compare d = compare m n := by
      rw [Dyadic.compare_eq_value, hn, Dyadic.value_ofInt, ← cmp_eq_compare, ← cmp_eq_compare]
      exact Int.cast_strictMono.cmp_map_eq m n
    simp only [blt, compare?, hnan, hinf, hd, Option.map_some, hcompare]
    rfl

end

end Number

end Questionnaire
