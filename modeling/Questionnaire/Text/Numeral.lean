/-
# Numbers in texts

A number in a text may have a sign and blanks around it, digits of any script
and single underscores between its digits. A whole number has at most 4300
digits. A float may also have a point, a power of ten, or be one of the words
for infinity and for what is no number.

Key definitions: `wholeOfText?`, `floatOfText?`.
-/
import Questionnaire.Text.Digit
import Questionnaire.Text.Blank
import Questionnaire.Decimal.Digits

namespace Questionnaire

/-- The digits without the single underscores between them; none if another
character is among them or an underscore stands elsewhere. -/
def plainDigits? : List Char → Option (List Char)
  | [] => none
  | [c] => if isDecimalDigit c then some [c] else none
  | c :: '_' :: rest => if isDecimalDigit c then (plainDigits? rest).map (c :: ·) else none
  | c :: rest => if isDecimalDigit c then (plainDigits? rest).map (c :: ·) else none

/-- Whether there is a minus sign, and what follows the sign. -/
def splitSign : List Char → Bool × List Char
  | '-' :: rest => (true, rest)
  | '+' :: rest => (false, rest)
  | cs => (false, cs)

/-- How many digits a whole number may have. -/
def digitLimit : Nat := 4300

/-- The digits of a whole number, and whether it has a minus sign. -/
def signedDigits? (cs : List Char) : Option (Bool × List Char) :=
  let (negative, body) := splitSign cs
  (plainDigits? body).map (negative, ·)

/-- The whole number that digits with a sign write. -/
def signedValue (negative : Bool) (ds : List Char) : Int :=
  if negative then -(digitsValue ds : Int) else digitsValue ds

/-- A whole number with its sign and margins around it. -/
def wholeOfChars? (cs : List Char) : Option Int := do
  let (negative, ds) ← signedDigits? (trimMargins cs)
  if digitLimit < ds.length then none else some (signedValue negative ds)

/-- The whole number that a text writes. -/
def wholeOfText? (s : String) : Option Int := wholeOfChars? s.toList

/-- What comes before and after the first character of a kind. -/
def splitAtFirst (stop : Char → Bool) (cs : List Char) : List Char × Option (List Char) :=
  match cs.dropWhile (!stop ·) with
  | [] => (cs, none)
  | _ :: rest => (cs.takeWhile (!stop ·), some rest)

/-- Digits, or nothing at all. -/
def optionalDigits? : List Char → Option (List Char)
  | [] => some []
  | cs => plainDigits? cs

/-- The digits before and after a point, of which one side may be empty. -/
def pointed? (cs : List Char) : Option (List Char × List Char) :=
  match splitAtFirst (· == '.') cs with
  | (whole, none) => (plainDigits? whole).map (·, [])
  | (whole, some part) => do
    let whole ← optionalDigits? whole
    let part ← optionalDigits? part
    if whole.isEmpty && part.isEmpty then none else some (whole, part)

/-- The exponent after the letter `e`; zero if there is none. -/
def powerOf? : Option (List Char) → Option Int
  | none => some 0
  | some cs => (signedDigits? cs).map fun (negative, ds) => signedValue negative ds

/-- A word for a value that is not a finite number. -/
def floatWord? (cs : List Char) : Option Float :=
  let word := String.ofList (cs.map Char.toLower)
  if word == "inf" || word == "infinity" then some (1.0 / 0.0)
  else if word == "nan" then some (0.0 / 0.0) else none

/-- The float that a text writes. -/
def floatOfText? (s : String) : Option Float :=
  let (negative, body) := splitSign (trimMargins s.toList)
  match floatWord? body with
  | some x => some (if negative then -x else x)
  | none => do
    let (mantissa, power) := splitAtFirst (fun c => c == 'e' || c == 'E') body
    let (whole, part) ← pointed? mantissa
    let exponent ← powerOf? power
    return Decimal.toFloat ⟨negative, digitsValue (whole ++ part), exponent - part.length⟩

example : wholeOfText? " -1_000\n" = some (-1000) := by decide
example : wholeOfText? "1__0" = none := by decide
example : wholeOfText? "1_" = none := by decide

end Questionnaire
