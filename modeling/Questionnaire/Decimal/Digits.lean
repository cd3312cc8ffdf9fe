/-
# Decimal digits of an exact number

Three ways to choose the digits of a number that has too many: the nearest
multiple of a power of ten, a count of leading digits, and the fewest digits
that still read back as the same float. Each choice is made in whole numbers,
so it is the choice for the exact value; a value half-way between two
candidates goes to the even one.
-/
import Questionnaire.Decimal.Dyadic

namespace Questionnaire

/-- The number `± digits · 10 ^ exponent`. -/
structure Decimal where
  negative : Bool
  digits : Nat
  exponent : Int
  deriving DecidableEq, Repr

/-- The whole number nearest to `num / den`; a half goes to the even neighbour. -/
def roundDiv (num den : Nat) : Nat :=
  let q := num / den
  let r := num % den
  if 2 * r < den then q else if den < 2 * r then q + 1 else q + q % 2

namespace Dyadic

/-- The value without its sign, as a numerator. -/
def numerator (d : Dyadic) : Nat := d.mantissa * twoTo d.exponent

/-- The denominator that goes with `numerator`. -/
def denominator (d : Dyadic) : Nat := twoTo (-d.exponent)

/-- Whether the value, without its sign, is at least `10 ^ e`. -/
def reaches (d : Dyadic) (e : Int) : Bool :=
  d.denominator * tenTo e ≤ d.numerator * tenTo (-e)

/-- The place of the leading digit of a value that is not zero: the `e` with
`10 ^ e ≤ value < 10 ^ (e + 1)`. The guess from the count of binary digits is
off by one at most. -/
def leadingPlace (d : Dyadic) : Int :=
  let guess := Int.fdiv (((d.numerator.log2 : Int) - d.denominator.log2) * 30103) 100000
  if d.reaches (guess + 1) then guess + 1
  else if d.reaches guess then guess else guess - 1

/-- The nearest multiple of `10 ^ place`. -/
def roundedAt (d : Dyadic) (place : Int) : Decimal :=
  ⟨d.negative,
    roundDiv (d.numerator * tenTo (-place)) (d.denominator * tenTo place), place⟩

/-- The nearest number of `count` digits. -/
def rounded (d : Dyadic) (count : Nat) : Decimal :=
  if d.mantissa == 0 then ⟨d.negative, 0, 0⟩
  else d.roundedAt (d.leadingPlace - count + 1)

/-- Whether `digits · 10 ^ place` reads back as the float with this value: it
lies between the midpoints to the two neighbouring floats, ends included when
the mantissa is even. Below a power of two the neighbour is half as far. -/
def readsBack (d : Dyadic) (digits : Nat) (place : Int) : Bool :=
  let below := if d.mantissa == twoTo 52 && leastExponent < d.exponent then 1 else 2
  let q := d.exponent - 2
  let here := digits * tenTo place * twoTo (-q)
  let unit := twoTo q * tenTo (-place)
  let low := (4 * d.mantissa - below) * unit
  let high := (4 * d.mantissa + 2) * unit
  if d.mantissa % 2 == 0 then low ≤ here && here ≤ high else low < here && here < high

/-- The number on the grid of `10 ^ place` that reads back, if one of the two
grid points next to the value does; the nearer one if both do. -/
def onGrid? (d : Dyadic) (place : Int) : Option Nat :=
  let num := d.numerator * tenTo (-place)
  let den := d.denominator * tenTo place
  let under := num / den
  match d.readsBack under place, d.readsBack (under + 1) place with
  | true, true => some (roundDiv num den)
  | true, false => some under
  | false, true => some (under + 1)
  | false, false => none

/-- The first of the given counts of digits whose grid holds a number that reads back. -/
def firstOnGrid (d : Dyadic) (leading : Int) : List Nat → Decimal
  | [] => d.rounded 17
  | n :: ns =>
    match d.onGrid? (leading - n + 1) with
    | some digits => ⟨d.negative, digits, leading - n + 1⟩
    | none => firstOnGrid d leading ns

/-- The fewest digits that read back as the same float; seventeen always do. -/
def shortest (d : Dyadic) : Decimal :=
  if d.mantissa == 0 then ⟨d.negative, 0, 0⟩
  else firstOnGrid d d.leadingPlace ((List.range 17).map (· + 1))

end Dyadic

namespace Decimal

/-- The greatest power of ten worth reading: past it every float is infinite or zero. -/
def farPlace : Int := 400

/-- The float nearest to the number. -/
def toFloat (d : Decimal) : Float :=
  let top := d.exponent + ((Nat.log2 d.digits * 30103 / 100000 : Nat) : Int)
  let magnitude : Float :=
    if d.digits == 0 then 0.0
    else if farPlace < top then 1.0 / 0.0
    else if top < -farPlace then 0.0
    else OfScientific.ofScientific d.digits (d.exponent < 0) d.exponent.natAbs
  if d.negative then -magnitude else magnitude

end Decimal

/-- The float nearest to `x` rounded to `count` leading decimal digits. -/
def roundToDigits (count : Nat) (x : Float) : Float :=
  match Dyadic.ofFloat? x with
  | some d => (d.rounded count).toFloat
  | none => x

/-- The float nearest to `x` rounded to `places` decimals after the point. -/
def roundToPlaces (places : Nat) (x : Float) : Float :=
  match Dyadic.ofFloat? x with
  | some d => (d.roundedAt (-places)).toFloat
  | none => x

end Questionnaire
