/-
# Keys are compared by value

Documents that are fit for keys are the same if they have the same value: whole
numbers, floats and truth values that of the number, moments with a zone their
instant. Of two infinities only the signs count, and the floats that are no
number are told apart by their marks. So being the same is an equivalence of
keys, and nothing else is the same as a key.

Key definitions: `Number.extended?`, `KeyValue`, `Document.keyValue`.
Key theorems: `Number.beq_iff`, `Document.beq_iff_keyValue`.
-/
import Questionnaire.Proofs.Decimal.Counts
import Questionnaire.Proofs.Survey.Choice

namespace Questionnaire

open Float.Model Float.Model.UnpackedFloat

/-! ### Numbers -/

namespace Unpacked

/-- The value of a number, which may be infinite. -/
def extended? : UnpackedFloat → Option (Sign ⊕ ℚ)
  | .infinity s => some (.inl s)
  | a => (value? a).map .inr

theorem exists_value_or {a : UnpackedFloat} :
    (∃ p, value? a = some p) ∨ (∃ s, a = .infinity s) ∨ a = .notANumber := by
  cases a with
  | infinity s => exact .inr (.inl ⟨s, rfl⟩)
  | notANumber => exact .inr (.inr rfl)
  | zero => exact .inl ⟨_, rfl⟩
  | finite => exact .inl ⟨_, rfl⟩

theorem extended?_of_value {a : UnpackedFloat} {p : ℚ} (h : value? a = some p) :
    extended? a = some (.inr p) := by
  cases a with
  | infinity => cases h
  | _ => exact congrArg (Option.map Sum.inr) h

/-- Numbers compare as equal if they have the same value. -/
theorem compare_eq_iff {a b : UnpackedFloat} (ha : Canonical a) (hb : Canonical b) :
    a.compare b = some .eq ↔ ∃ v, extended? a = some v ∧ extended? b = some v := by
  rcases @exists_value_or a with ⟨p, hp⟩ | ⟨s, rfl⟩ | rfl
  case inl =>
    rcases @exists_value_or b with ⟨q, hq⟩ | ⟨t, rfl⟩ | rfl
    · rw [compare_eq_value ha hb hp hq, extended?_of_value hp, extended?_of_value hq]
      simpa [eq_comm] using compare_eq_iff_eq
    · rw [extended?_of_value hp]
      cases a <;> cases t <;> simp_all [value?, extended?, UnpackedFloat.compare]
    · cases a <;> simp [extended?, value?, UnpackedFloat.compare]
  case inr.inl =>
    rcases @exists_value_or b with ⟨q, hq⟩ | ⟨t, rfl⟩ | rfl
    · rw [compare_infinity hq, extended?_of_value hq]
      cases s <;> simp [extended?, Sign.apply]
    · cases s <;> cases t <;> simp [extended?] <;> decide
    · cases s <;> simp [extended?, value?, UnpackedFloat.compare]
  case inr.inr =>
    simp [extended?, value?, UnpackedFloat.compare]

end Unpacked

namespace Number

/-- The value of a number, which may be infinite; none if it is not a number. -/
def extended? : Number → Option (Sign ⊕ ℚ)
  | int n => some (.inr n)
  | float x => Unpacked.extended? x.toModel.unpack

theorem float_beq_iff (x y : Float) : (x == y) = true ↔
    ∃ v, (float x).extended? = some v ∧ (float y).extended? = some v := by
  rw [extended?, extended?, ← Unpacked.compare_eq_iff (Unpacked.canonical_unpack _)
    (Unpacked.canonical_unpack _)]
  change (x.toModel.unpack.compare y.toModel.unpack == some .eq) = true ↔ _
  exact beq_iff_eq

theorem isNaN_iff (x : Float) : x.isNaN = true ↔ (float x).extended? = none := by
  change x.toModel.unpack.isNaN = true ↔ Unpacked.extended? x.toModel.unpack = none
  cases x.toModel.unpack <;> simp [Unpacked.extended?, Unpacked.value?, UnpackedFloat.isNaN]

theorem compare?_float_int_eq_iff (x : Float) (n : ℤ) : compare? (.float x) (.int n) = some .eq ↔
    (float x).extended? = some (.inr n) := by
  rcases @Unpacked.exists_value_or x.toModel.unpack with ⟨p, hp⟩ | ⟨s, hs⟩ | hnone
  · rw [compare?_float_int hp, extended?, Unpacked.extended?_of_value hp, Option.some_inj,
      compare_eq_iff_eq]
    simp
  · have hnan : x.isNaN = false := congrArg UnpackedFloat.isNaN hs
    have hinf : x.isInf = true := congrArg UnpackedFloat.isInf hs
    rw [extended?, hs, compare?, hnan, hinf]
    by_cases hneg : x < 0 <;> simp [hneg, Unpacked.extended?]
  · have hnan : x.isNaN = true := congrArg UnpackedFloat.isNaN hnone
    rw [extended?, hnone, compare?, hnan]
    simp [Unpacked.extended?, Unpacked.value?]

theorem compare?_swap (x : Float) (n : ℤ) :
    compare? (.int n) (.float x) = (compare? (.float x) (.int n)).map (·.swap) := by
  have hdyadic (d : Dyadic) : (Dyadic.ofInt n).compare d = (d.compare (.ofInt n)).swap := by
    rw [Dyadic.compare_eq_value, Dyadic.compare_eq_value, ← cmp_eq_compare, ← cmp_eq_compare,
      cmp_swap]
  unfold compare?
  dsimp only
  cases x.isNaN with
  | true => rfl
  | false =>
    cases x.isInf with
    | true => by_cases hneg : x < 0 <;> simp [hneg]
    | false =>
      simp only [Bool.false_eq_true, if_false, Option.map_map, Function.comp_def, ← hdyadic]

theorem compare?_int_float_eq_iff (n : ℤ) (x : Float) : compare? (.int n) (.float x) = some .eq ↔
    (float x).extended? = some (.inr n) := by
  rw [compare?_swap, ← compare?_float_int_eq_iff]
  rcases compare? (.float x) (.int n) with _ | _ | _ | _ <;> simp

theorem compare?_float_float_eq_iff (x y : Float) :
    compare? (.float x) (.float y) = some .eq ↔ (x == y) = true := by
  have hlt : x < y → ¬(x == y) = true := by
    intro hlt heq
    have hlt := (lt_iff_compare x y).mp hlt
    change (x.toModel.unpack.compare y.toModel.unpack == some .eq) = true at heq
    rw [hlt] at heq
    cases heq
  unfold compare?
  by_cases h : x < y
  · simp [h, hlt h]
  · by_cases heq : (x == y) = true
    · simp [h, heq]
    · by_cases hgt : y < x <;> simp [h, heq, hgt]

/-- **Numbers are equal if they have the same value**, of whatever kind they are. -/
theorem beq_iff (a b : Number) :
    (a == b) = true ↔ ∃ v, a.extended? = some v ∧ b.extended? = some v := by
  change (compare? a b == some .eq) = true ↔ _
  rw [beq_iff_eq]
  cases a with
  | int m =>
    cases b with
    | int n =>
      change some (compare m n) = some .eq ↔ _
      rw [Option.some_inj, compare_eq_iff_eq]
      simp [extended?, eq_comm]
    | float y =>
      rw [compare?_int_float_eq_iff]
      simp [extended?]
  | float x =>
    cases b with
    | int n =>
      rw [compare?_float_int_eq_iff]
      simp [extended?]
    | float y => rw [compare?_float_float_eq_iff, float_beq_iff]

end Number

/-! ### Keys -/

/-- What a key is compared by. The usual float that is no number is a number without a value. -/
inductive KeyValue where
  | unfit
  | null
  | number (value : Option (Sign ⊕ ℚ))
  | nan (mark : Nat)
  | str (s : String)
  | bytes (bs : List UInt8)
  | day (d : Day)
  | moment (hasZone : Bool) (instant : Int)
  | pair (first second : KeyValue)

namespace Document

/-- The value that a document is compared by as a key. -/
def keyValue : Document → KeyValue
  | null => .null
  | bool b => .number (Number.int (if b then 1 else 0)).extended?
  | int n => .number (Number.int n).extended?
  | float x => .number (Number.float x).extended?
  | nan mark => .nan mark
  | str s => .str s
  | bytes bs => .bytes bs
  | day d => .day d
  | moment m => .moment m.zone.isSome m.instant
  | pair a b => .pair a.keyValue b.keyValue
  | list _ | set _ | map _ | knot .. | link .. => .unfit

theorem extended?_nan : (Number.float (0.0 / 0.0)).extended? = none := rfl

theorem int_beq_iff {m : ℤ} {n : Number} :
    (Number.int m == n) = true ↔ some (.inr ↑m) = n.extended? := by
  rw [Number.beq_iff]
  simp [Number.extended?, eq_comm]

theorem beq_int_iff {m : Number} {n : ℤ} :
    (m == Number.int n) = true ↔ m.extended? = some (.inr ↑n) := by
  rw [Number.beq_iff]
  simp [Number.extended?]

theorem sameNumber_int_iff {n : ℤ} {b : Document} (hb : b.isKey = true) :
    (int n).sameNumber b = true ↔ (int n).keyValue = b.keyValue := by
  cases b with
  | nan mark => simp [sameNumber, number?, keyValue, int_beq_iff, extended?_nan]
  | _ => simp_all [sameNumber, number?, keyValue, int_beq_iff, isKey, Number.extended?]

theorem sameNumber_bool_iff {c : Bool} {b : Document} (hb : b.isKey = true) :
    (bool c).sameNumber b = true ↔ (bool c).keyValue = b.keyValue :=
  sameNumber_int_iff (n := if c then 1 else 0) hb

theorem sameNumber_float_iff {x : Float} {b : Document} (hb : b.isKey = true) :
    (float x).sameNumber b = true ↔ (float x).keyValue = b.keyValue := by
  cases b with
  | float y =>
    -- two floats that are no number are not equal, but the same key
    have hsame : (float x).sameNumber (float y) = (x == y || (x.isNaN && y.isNaN)) := rfl
    rw [hsame, keyValue, keyValue, KeyValue.number.injEq, Bool.or_eq_true, Bool.and_eq_true,
      Number.isNaN_iff, Number.isNaN_iff, Number.float_beq_iff]
    cases (Number.float x).extended? <;> cases (Number.float y).extended? <;> simp [eq_comm]
  | nan mark => simp [sameNumber, number?, keyValue, Number.beq_iff, extended?_nan]
  | _ => simp_all [sameNumber, number?, keyValue, beq_int_iff, isKey, Number.extended?]

/-- A document is the same as a key if it has the same value. -/
theorem same_iff_keyValue : ∀ {a b : Document}, b.isKey = true →
    (a.same b = true ↔ a.keyValue = b.keyValue)
  | bool c, b, h => by rw [same, sameNumber_bool_iff h]
  | int n, b, h => by rw [same, sameNumber_int_iff h]
  | float x, b, h => by rw [same, sameNumber_float_iff h]
  | pair a a', b, h => by
    cases b with
    | pair b b' =>
      simp only [isKey, Bool.and_eq_true] at h
      simp [same, keyValue, same_iff_keyValue h.1, same_iff_keyValue h.2]
    | _ => simp_all [same, keyValue, isKey]
  | null, b, h | nan _, b, h | str _, b, h | bytes _, b, h | day _, b, h | moment _, b, h
  | list _, b, h | set _, b, h | map _, b, h | knot .., b, h | link .., b, h => by
    cases b <;> simp_all [same, keyValue, isKey, Moment.same]

/-- **Keys are compared by value.** -/
theorem beq_iff_keyValue {a b : Document} (hb : b.isKey = true) :
    (a == b) = true ↔ a.keyValue = b.keyValue := by
  rw [← same_iff_keyValue hb]
  cases b with
  | knot => simp [isKey] at hb
  | _ => cases a <;> rfl

end Document

end Questionnaire
