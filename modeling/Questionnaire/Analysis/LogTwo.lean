/-
# Logarithms of probabilities

The logarithm to base two; of zero it is taken to be zero. A whole number may be
too large for a float and still have a logarithm: it is a float below one times
a power of two.
-/
import Questionnaire.Number

namespace Questionnaire

/-- The logarithm to base two; of zero it is taken to be zero. -/
def logTwo (p : Float) : Float := if p == 0.0 then 0.0 else Float.log2 p

/-- The leading 64 bits of a whole number as a part of one. The last of them stands for all bits
that are cut off, so the float is the one nearest to the exact part. -/
def leadingPart (n size : Nat) : Float :=
  let cut := n / twoTo (size - 64)
  let rounded := if n % twoTo (size - 64) == 0 || cut % 2 == 1 then cut else cut + 1
  Float.ofNat rounded / Float.ofNat (twoTo 64)

/-- The logarithm of a whole number that may be too large for a float. -/
def logTwoOfNat (n : Nat) : Float :=
  let x := Float.ofNat n
  if x.isInf then
    let size := n.log2 + 1
    Float.log2 (leadingPart n size) + Float.ofNat size
  else logTwo x

namespace Number

/-- The logarithm of a number that is not negative. -/
def logTwo : Number → Float
  | int n => logTwoOfNat n.toNat
  | float x => Questionnaire.logTwo x

end Number

end Questionnaire
