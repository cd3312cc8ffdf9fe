/-
# Columns of numbers

The numbers of a column are kept in one format: as truth values if they are
nothing else, as words of 64 bits, with or without a sign, if they are whole and
fit, and as floats if one of them is a float or some fit one kind of word and
some the other. A number that becomes a float on the way is rounded. Whole
numbers that fit no word have no format.

Columns that stand side by side are brought into one format. Columns that are
only compared need not be: words of both kinds are compared exactly.

Key definitions: `ColumnFormat.ofInt?`, `ColumnFormat.join`,
`ColumnFormat.convert`, `ColumnFormat.toCompare`.
-/
import Questionnaire.Number
import Questionnaire.Whole

namespace Questionnaire

/-- How the numbers of a column are kept. -/
inductive ColumnFormat where
  | truth
  | signed
  | unsigned
  | floating
  deriving DecidableEq, Repr, Inhabited

namespace ColumnFormat

/-- The format that two formats have in common. -/
def join : ColumnFormat → ColumnFormat → ColumnFormat
  | truth, f | f, truth => f
  | signed, signed => signed
  | unsigned, unsigned => unsigned
  | _, _ => floating

/-- The format of cells with some formats. -/
def joinAll (fs : List ColumnFormat) : ColumnFormat := fs.foldl join truth

/-- The least number that no word with a sign holds. -/
def signedLimit : Int := twoTo 63

/-- The least number that no word without a sign holds. -/
def unsignedLimit : Int := twoTo 64

/-- The kind of word that holds a whole number. -/
def ofInt? (n : Int) : Option ColumnFormat :=
  if -signedLimit ≤ n && n < signedLimit then some signed
  else if 0 ≤ n && n < unsignedLimit then some unsigned
  else none

/-- A number in a format. -/
def convert (f : ColumnFormat) (n : Number) : Number :=
  match f with
  | floating => .float n.toFloat
  | _ => n

/-- The format in which columns are compared: as floats if one of them is, and else exactly. -/
def toCompare (f g : ColumnFormat) : ColumnFormat :=
  if f = floating || g = floating then floating else signed

end ColumnFormat

end Questionnaire
