/-
# A float as an exact number

A finite float is a whole number times a power of two. `Dyadic.ofFloat?`
reads the two off the bits, so that comparing, rounding and writing a float
can be done in whole numbers.
-/
import Questionnaire.Whole

namespace Questionnaire

/-- The number `± mantissa · 2 ^ exponent`. -/
structure Dyadic where
  negative : Bool
  mantissa : Nat
  exponent : Int
  deriving DecidableEq, Repr

namespace Dyadic

/-- The exponent of the smallest positive float, and of all that share its spacing. -/
def leastExponent : Int := -1074

/-- The exact value of a finite float; infinities and not-a-number have none. -/
def ofFloat? (x : Float) : Option Dyadic :=
  let bits : Nat := x.toBits.toNat
  let negative := bits / twoTo 63 == 1
  let scale : Nat := bits / twoTo 52 % twoTo 11
  let fraction : Nat := bits % twoTo 52
  if scale == 2047 then none
  else if scale == 0 then some ⟨negative, fraction, leastExponent⟩
  else some ⟨negative, fraction + twoTo 52, (scale : Int) - 1075⟩

/-- The mantissa with its sign. -/
def signed (d : Dyadic) : Int := if d.negative then -(d.mantissa : Int) else d.mantissa

/-- Compares two values `m · 2 ^ e` by bringing them to the smaller exponent. -/
def compare (a b : Dyadic) : Ordering :=
  let e := min a.exponent b.exponent
  Ord.compare (a.signed * twoTo (a.exponent - e)) (b.signed * twoTo (b.exponent - e))

/-- Whether a value that is not zero divides another one. -/
def divides (a b : Dyadic) : Bool :=
  let e := min a.exponent b.exponent
  b.signed * twoTo (b.exponent - e) % (a.signed * twoTo (a.exponent - e)) == 0

/-- A whole number as a dyadic one. -/
def ofInt (n : Int) : Dyadic := ⟨n < 0, n.natAbs, 0⟩

/-- The greatest whole number not above the value. -/
def floor (d : Dyadic) : Int :=
  if 0 ≤ d.exponent then d.signed * twoTo d.exponent
  else Int.fdiv d.signed (twoTo (-d.exponent))

end Dyadic

end Questionnaire
