/-
# How a float is written

All formats of this library write a float with the fewest digits that read
back. They differ in how they spell the values that are not numbers and in
whether a power of ten needs a point before it. `FloatStyle` holds those
choices.
-/
import Questionnaire.Decimal.Digits

namespace Questionnaire

/-- The choices of a format. -/
structure FloatStyle where
  /-- What stands for a value that is not a number. -/
  notANumber : String
  /-- What stands for infinity; a minus sign goes before it. -/
  infinity : String
  /-- Whether a single digit before a power of ten is written `1.0e+20`. -/
  pointBeforePower : Bool

namespace FloatStyle

/-- The style of messages. -/
def plain : FloatStyle := ⟨"nan", "inf", false⟩

/-- The style of JSON texts. -/
def json : FloatStyle := ⟨"NaN", "Infinity", false⟩

/-- The style of YAML texts. -/
def yaml : FloatStyle := ⟨".nan", ".inf", true⟩

end FloatStyle

namespace Decimal

/-- The digits without zeros at their end, and the exponent that makes up for them. -/
def stripZeros (fuel digits : Nat) (exponent : Int) : Nat × Int :=
  match fuel with
  | 0 => (digits, exponent)
  | fuel + 1 =>
    if digits ≠ 0 ∧ digits % 10 = 0 then stripZeros fuel (digits / 10) (exponent + 1)
    else (digits, exponent)

/-- The same number with as few digits as possible; zero has exponent zero. -/
def normal (d : Decimal) : Decimal :=
  if d.digits == 0 then { d with exponent := 0 }
  else
    let (digits, exponent) := stripZeros (Nat.log2 d.digits + 1) d.digits d.exponent
    { d with digits, exponent }

/-- A text of zeros. -/
def zeros (n : Nat) : String := String.ofList (List.replicate n '0')

/-- The exponents whose numbers are written without a power of ten. -/
def positional (leading : Int) : Bool := -4 ≤ leading && leading < 16

/-- The number in a format's style: `12.5`, `3.0`, `1e-07`, `1.5e+16`. -/
def write (style : FloatStyle) (d : Decimal) : String :=
  let n := d.normal
  let sign := if n.negative then "-" else ""
  let digits := toString n.digits
  let count := digits.length
  let leading := n.exponent + count - 1
  let body :=
    if positional leading then
      if 0 ≤ n.exponent then digits ++ zeros n.exponent.toNat ++ ".0"
      else if 0 ≤ leading then
        String.ofList (digits.toList.take (leading.toNat + 1)) ++ "." ++
          String.ofList (digits.toList.drop (leading.toNat + 1))
      else "0." ++ zeros (-leading - 1).toNat ++ digits
    else
      let head := String.ofList (digits.toList.take 1)
      let tail := String.ofList (digits.toList.drop 1)
      let point := if count > 1 then "." ++ tail else if style.pointBeforePower then ".0" else ""
      let power := toString leading.natAbs
      head ++ point ++ "e" ++ (if leading < 0 then "-" else "+") ++
        (if power.length < 2 then "0" ++ power else power)
  sign ++ body

/-- The number with a fixed count of decimals, which must be the places it has. -/
def writeFixed (places : Nat) (d : Decimal) : String :=
  let digits := toString d.digits
  let padded := zeros (places + 1 - digits.length) ++ digits
  let cut := padded.length - places
  (if d.negative then "-" else "") ++ String.ofList (padded.toList.take cut) ++ "." ++
    String.ofList (padded.toList.drop cut)

end Decimal

/-- A float in a format's style. -/
def FloatStyle.write (style : FloatStyle) (x : Float) : String :=
  match Dyadic.ofFloat? x with
  | some d => d.shortest.write style
  | none =>
    if x.isNaN then style.notANumber
    else if x < 0 then "-" ++ style.infinity else style.infinity

/-- A float with six decimals, as progress notes give it. -/
def writeSixPlaces (x : Float) : String :=
  match Dyadic.ofFloat? x with
  | some d => (d.roundedAt (-6)).writeFixed 6
  | none => if x.isNaN then "nan" else if x < 0 then "-inf" else "inf"

end Questionnaire
