/-
# Tail probabilities

The probability that a normal, a chi-squared or a Student variable lies beyond
a point. With whole degrees of freedom the last two are finite sums; only the
normal tail needs a series, and far out a continued fraction.

Key definitions: `normalTail`, `chiSquaredTail`, `correlationTail`.
-/
import Questionnaire.Fault

namespace Questionnaire.Stats

/-- The ratio of a circle's circumference to its diameter. -/
def pi : Float := 3.141592653589793

/-- The sum of a series whose terms follow from one another by factors. -/
def seriesSum (factor : Nat → Float) : Nat → Nat → Float → Float
  | 0, _, _ => 0.0
  | fuel + 1, k, term => term + seriesSum factor fuel (k + 1) (term * factor k)

/-- The sum of a series of positive terms, given by the logarithms of the first one and of the
factors. The terms may be too small for floats as long as the greatest ones are not. -/
def logSeriesSum (factor : Nat → Float) : Nat → Nat → Float → Float
  | 0, _, _ => 0.0
  | fuel + 1, k, term => Float.exp term + logSeriesSum factor fuel (k + 1) (term + factor k)

/-- The error function of a small number, by its series of positive terms. -/
def erfSeries (x : Float) : Float :=
  2.0 / Float.sqrt pi * Float.exp (-(x * x)) *
    seriesSum (fun k => 2.0 * x * x / (2.0 * Float.ofNat k + 3.0)) 120 0 x

/-- The levels `k, …, 1` of the continued fraction of the normal tail. -/
def tailFraction (x : Float) : Nat → Float → Float
  | 0, acc => acc
  | k + 1, acc => tailFraction x k (x + Float.ofNat (k + 1) / 2.0 / acc)

/-- One minus the error function. -/
def erfc (x : Float) : Float :=
  if x < 0.0 then 2.0 - erfcUp (-x) else erfcUp x
where
  /-- One minus the error function of a number that is not negative. -/
  erfcUp (x : Float) : Float :=
    if x < 2.5 then 1.0 - erfSeries x
    else Float.exp (-(x * x)) / (Float.sqrt pi * tailFraction x 80 x)

/-- The probability that a normal variable is greater than `z`. -/
def normalTail (z : Float) : Float := 0.5 * erfc (z / Float.sqrt 2.0)

/-- The probability that the sum of `freedom` squared normal variables is
greater than `x`. -/
def chiSquaredTail (freedom : Nat) (x : Float) : Float :=
  if x ≤ 0.0 then 1.0
  else if x.isInf then 0.0
  else
    let y := x / 2.0
    let sum :=
      if freedom % 2 = 0 then
        logSeriesSum (fun k => Float.log (y / (Float.ofNat k + 1.0))) (freedom / 2) 0 (-y)
      else
        let first := Float.log (2.0 * Float.sqrt (y / pi)) - y
        erfc (Float.sqrt y) +
          logSeriesSum (fun k => Float.log (y / (Float.ofNat k + 1.5))) (freedom / 2) 0 first
    if 1.0 < sum then 1.0 else sum

/-- The probability that the correlation of `freedom + 2` pairs of independent
normal variables is further from zero than `r`. This is Student's two-sided
tail at `r √(freedom / (1 - r²))`. -/
def correlationTail (freedom : Nat) (r : Float) : Float :=
  let sine := if 1.0 < r.abs then 1.0 else r.abs
  let square := 1.0 - sine * sine
  let inside :=
    if freedom % 2 = 0 then
      sine * seriesSum (fun k => (2.0 * Float.ofNat k + 1.0) / (2.0 * Float.ofNat k + 2.0) * square)
        (freedom / 2) 0 1.0
    else
      let sum := seriesSum
        (fun k => (2.0 * Float.ofNat k + 2.0) / (2.0 * Float.ofNat k + 3.0) * square)
        (freedom / 2) 0 (Float.sqrt square)
      2.0 / pi * (Float.asin sine + sine * sum)
  if 1.0 < inside then 0.0 else 1.0 - inside

end Questionnaire.Stats
