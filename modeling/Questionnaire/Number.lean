/-
# Numbers that stay whole when they are whole

A setting or a score may be given as a whole number or as a float, and a whole
number stays one through sums and products of whole numbers. Comparing the two
kinds is exact; computing with both gives a float, for which a whole number may
be too large: `add?`, `sub?` and `mul?` fail then, and the operations without a
mark take it for infinity.
-/
import Questionnaire.Decimal.Dyadic

namespace Questionnaire

/-- A whole number of any size, or a float. -/
inductive Number where
  | int (n : Int)
  | float (x : Float)
  deriving Repr, Inhabited

namespace Number

/-- The number as a float. -/
def toFloat : Number → Float
  | int n => Float.ofInt n
  | float x => x

/-- The number as a float; none if it is whole and too large for one. -/
def toFloat? : Number → Option Float
  | int n =>
    let x := Float.ofInt n
    if x.isInf then none else some x
  | float x => some x

/-- The order of two numbers by exact value; none if one is not a number. -/
def compare? : Number → Number → Option Ordering
  | int m, int n => some (compare m n)
  | int m, float y =>
    if y.isNaN then none
    else if y.isInf then some (if y < 0 then .gt else .lt)
    else (Dyadic.ofFloat? y).map (Dyadic.compare (.ofInt m))
  | float x, int n =>
    if x.isNaN then none
    else if x.isInf then some (if x < 0 then .lt else .gt)
    else (Dyadic.ofFloat? x).map fun d => Dyadic.compare d (.ofInt n)
  | float x, float y =>
    if x < y then some .lt else if x == y then some .eq else if y < x then some .gt else none

/-- Strictly less, by exact value. -/
def blt (a b : Number) : Bool := compare? a b == some .lt

/-- Less or equal, by exact value. -/
def ble (a b : Number) : Bool := compare? a b == some .lt || compare? a b == some .eq

/-- Equal by exact value: `1` and `1.0` are. -/
def beq (a b : Number) : Bool := compare? a b == some .eq

instance : BEq Number := ⟨beq⟩

/-- The sum: whole if both are. -/
def add : Number → Number → Number
  | int m, int n => int (m + n)
  | a, b => float (a.toFloat + b.toFloat)

/-- The difference: whole if both are. -/
def sub : Number → Number → Number
  | int m, int n => int (m - n)
  | a, b => float (a.toFloat - b.toFloat)

/-- The product: whole if both are. -/
def mul : Number → Number → Number
  | int m, int n => int (m * n)
  | a, b => float (a.toFloat * b.toFloat)

instance : Add Number := ⟨add⟩
instance : Sub Number := ⟨sub⟩
instance : Mul Number := ⟨mul⟩
instance : OfNat Number n := ⟨int n⟩

/-- The result on floats, unless one of the numbers is too large for one. -/
def onFloats? (f : Float → Float → Float) (a b : Number) : Option Number := do
  return float (f (← a.toFloat?) (← b.toFloat?))

/-- The sum, if a whole number beside a float is not too large for one. -/
def add? : Number → Number → Option Number
  | int m, int n => some (int (m + n))
  | a, b => onFloats? (· + ·) a b

/-- The difference, if a whole number beside a float is not too large for one. -/
def sub? : Number → Number → Option Number
  | int m, int n => some (int (m - n))
  | a, b => onFloats? (· - ·) a b

/-- The product, if a whole number beside a float is not too large for one. -/
def mul? : Number → Number → Option Number
  | int m, int n => some (int (m * n))
  | a, b => onFloats? (· * ·) a b

/-- Whether a whole number is a multiple of a number that is not zero. -/
def divides (m : Number) (n : Int) : Bool :=
  match m with
  | int m => n % m == 0
  | float x =>
    match Dyadic.ofFloat? x with
    | some d => d.divides (.ofInt n)
    | none => n == 0 && !x.isNaN

/-- The greatest whole number not above a finite number. -/
def floor? : Number → Option Int
  | int n => some n
  | float x => (Dyadic.ofFloat? x).map Dyadic.floor

/-- The least whole number not below a finite number. -/
def ceil? : Number → Option Int
  | int n => some n
  | float x => (Dyadic.ofFloat? x).map fun d => -Dyadic.floor { d with negative := !d.negative }

end Number

end Questionnaire
