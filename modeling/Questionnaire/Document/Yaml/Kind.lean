/-
# What a YAML value is

A tag says what kind of value a text, a list or a mapping is. Without a tag a
plain text is what it looks like: `yes` is a truth value, `010` a number in
octal, `12:30` one to base sixty, `1.5` a float, `~` nothing, and `1e3`, which
has no point, a text. One line end after such a text does not change what it
is.

Key definitions: `Kind.ofPlain`, `Kind.ofTag`, `Kind.read`.
-/
import Questionnaire.Document.Access
import Questionnaire.Document.Yaml.Binary
import Questionnaire.Document.Yaml.Timestamp
import Questionnaire.Text.Numeral

namespace Questionnaire.Yaml

/-- The kinds of values. `merge` is the key `<<`, `equals` the key `=`. -/
inductive Kind where
  | null
  | bool
  | int
  | float
  | timestamp
  | binary
  | text
  | merge
  | equals
  | list
  | map
  | set
  | pairs
  | unknown
  deriving DecidableEq, Repr, Inhabited

namespace Kind

/-! ### Plain texts -/

/-- Whether a character is one of the digits below a base or an underscore. -/
def isDigitBelow (base : Nat) (c : Char) : Bool := c == '_' || (hexDigit? c).any (· < base)

/-- Whether characters are at least one and all of a kind. -/
def areAll (kind : Char → Bool) (cs : List Char) : Bool := !cs.isEmpty && cs.all kind

/-- Whether characters begin with a digit that is at least `least` and go on with digits. -/
def isDecimal (least : Char) : List Char → Bool
  | [] => false
  | c :: rest => least ≤ c && c ≤ '9' && rest.all (isDigitBelow 10)

/-- Whether characters are the digits of a number below sixty. -/
def isSixtieth : List Char → Bool
  | [c] => c.isDigit
  | [c, d] => '0' ≤ c && c ≤ '5' && d.isDigit
  | _ => false

/-- Whether characters are several numbers between colons, all but the first below sixty. -/
def isSexagesimal (least : Char) (cs : List Char) : Bool :=
  match cs.splitOn ':' with
  | first :: second :: more => isDecimal least first && (second :: more).all isSixtieth
  | _ => false

/-- Whether characters write a whole number: to base two, eight, ten, sixteen or sixty. -/
def isInt (cs : List Char) : Bool :=
  let body := (splitSign cs).2
  match body with
  | ['0'] => true
  | '0' :: 'b' :: rest => areAll (isDigitBelow 2) rest
  | '0' :: 'x' :: rest => areAll (isDigitBelow 16) rest
  | '0' :: rest => areAll (isDigitBelow 8) rest
  | body => isDecimal '1' body || isSexagesimal '1' body

/-- Whether characters are a power of ten with its sign, or nothing. -/
def isPower : List Char → Bool
  | [] => true
  | e :: sign :: rest =>
    (e == 'e' || e == 'E') && (sign == '-' || sign == '+') && areAll Char.isDigit rest
  | _ => false

/-- The words for infinity. -/
def infinities : List String := [".inf", ".Inf", ".INF"]

/-- The words for what is no number. -/
def notNumbers : List String := [".nan", ".NaN", ".NAN"]

/-- Whether characters write a float. Without digits before the point there is no sign. -/
def isFloat (cs : List Char) : Bool :=
  let body := (splitSign cs).2
  let (whole, part) := splitAtFirst (· == '.') body
  match part with
  | none => false
  | some part =>
    let digits := part.takeWhile (isDigitBelow 10)
    let after := part.dropWhile (isDigitBelow 10)
    (isDecimal '0' whole && isPower after) ||
      (isSexagesimal '0' whole && after.isEmpty) ||
      (cs.head? == some '.' && isDecimal '0' digits && isPower after) ||
      infinities.contains (String.ofList body) || notNumbers.contains (String.ofList cs)

/-- The words for yes. -/
def yesWords : List String :=
  ["yes", "Yes", "YES", "true", "True", "TRUE", "on", "On", "ON"]

/-- The words for no. -/
def noWords : List String :=
  ["no", "No", "NO", "false", "False", "FALSE", "off", "Off", "OFF"]

/-- The words for nothing. -/
def nullWords : List String := ["", "~", "null", "Null", "NULL"]

/-- The signs that are kept for the format itself and stand for no value. -/
def reservedSigns : List String := ["!", "&", "*"]

/-- What a plain text is. -/
def ofPlain (s : String) : Kind :=
  let cs := withoutLineEnd s.toList
  let word := String.ofList cs
  if s == "\n" then text
  else if reservedSigns.contains word then unknown
  else if yesWords.contains word || noWords.contains word then bool
  else if isFloat cs then float
  else if isInt cs then int
  else if word == "<<" then merge
  else if nullWords.contains word then null
  else if Timestamp.isPlain cs then timestamp
  else if word == "=" then equals
  else text

/-! ### Tags -/

/-- What the tags of the standard begin with. -/
def standard : String := "tag:yaml.org,2002:"

/-- The kinds by the names of their tags. -/
def names : List (String × Kind) := [
  ("null", null), ("bool", bool), ("int", int), ("float", float), ("timestamp", timestamp),
  ("binary", binary), ("str", text), ("seq", list), ("map", map), ("set", set), ("omap", pairs),
  ("pairs", pairs), ("merge", merge), ("value", equals)]

/-- The kind that a tag names. -/
def ofTag (tag : String) : Kind :=
  ((names.find? fun (name, _) => standard ++ name == tag).map (·.2)).getD unknown

/-! ### Values -/

/-- The number that digits to a base write, with the margins, the sign and the letter of the base
that may stand around and before them. -/
def wholeInBase? (base : Nat) (letter : Char) (cs : List Char) : Option Int := do
  let (negative, body) := splitSign (trimMargins cs)
  let digits := match body with
    | '0' :: c :: rest => if c.toLower == letter then rest else body
    | body => body
  if digits.isEmpty then none
  let n ← digits.foldlM (fun n c => do
    let d ← (digitValue? c).or (hexDigit? c)
    if d < base then some (base * n + d) else none) 0
  return if negative then -(n : Int) else n

/-- The value of parts to base sixty. -/
def wholeOfParts? (parts : List (List Char)) : Option Int :=
  parts.foldlM (fun n part => (wholeOfChars? part).map (60 * n + ·)) 0

/-- The whole number without its sign. -/
def unsignedInt? (body : List Char) : Option Int :=
  match body with
  | ['0'] => some 0
  | '0' :: 'b' :: rest => wholeInBase? 2 'b' rest
  | '0' :: 'x' :: rest => wholeInBase? 16 'x' rest
  | '0' :: _ => wholeInBase? 8 'o' body
  | body => wholeOfParts? (body.splitOn ':')

/-- The whole number that a text is. -/
def readInt (s : String) : Except Fault Document :=
  let (negative, body) := splitSign (s.toList.filter (· != '_'))
  if body.isEmpty then .error .outOfRange
  else match unsignedInt? body with
    | some n => .ok (.int (if negative then -n else n))
    | none => .error .unsuitable

/-- The value of floats to base sixty, least one first. A place that no float holds is too large
even for a zero. -/
def sexagesimalSum (base : Nat) : List Float → Float → Except Fault Float
  | [], sum => .ok sum
  | x :: xs, sum => do
    sexagesimalSum (60 * base) xs (sum + x * (← Document.floatOf (.int base)))

/-- The float that a word or digits write, without a sign. -/
def unsignedFloat (body : List Char) : Except Fault Float :=
  let word := String.ofList body
  let read (part : List Char) : Except Fault Float :=
    match floatOfText? (String.ofList part) with
    | some x => .ok x
    | none => .error .unsuitable
  if word == ".inf" then .ok (1.0 / 0.0)
  else match body.splitOn ':' with
    | [_] => read body
    | parts => do sexagesimalSum 1 (← parts.mapM read).reverse 0.0

/-- The float that a text is. The word `.nan` always writes one and the same value; what else is
no number is a value of its own, known by the mark. -/
def readFloat (mark : Nat) (s : String) : Except Fault Document :=
  let cs := (s.toList.filter (· != '_')).map Char.toLower
  if cs.isEmpty then .error .outOfRange
  else
    let (negative, body) := splitSign cs
    if String.ofList body == ".nan" then .ok (.float (0.0 / 0.0))
    else do
      let x ← unsignedFloat body
      return if x.isNaN then .nan mark else .float (if negative then -x else x)

/-- The truth value that a text is. -/
def readBool (s : String) : Except Fault Document :=
  let word := String.ofList (s.toList.map Char.toLower)
  if yesWords.contains word then .ok (.bool true)
  else if noWords.contains word then .ok (.bool false)
  else .error .missingField

/-- The day or moment that a text is. -/
def readTimestamp (s : String) : Except Fault Document :=
  match Timestamp.ofChars? s.toList with
  | none => .error .notAMapping
  | some t =>
    match t.document? with
    | some d => .ok d
    | none => .error .unsuitable

/-- The bytes that a text is. -/
def readBinary (s : String) : Except Fault Document :=
  match sixtyFour? s.toList with
  | some bs => .ok (.bytes bs)
  | none => .error .malformedYaml

/-- The value of a kind that a text is. The mark is that of the place where the text stands. -/
def read (k : Kind) (mark : Nat) (s : String) : Except Fault Document :=
  match k with
  | null => .ok .null
  | bool => readBool s
  | int => readInt s
  | float => readFloat mark s
  | timestamp => readTimestamp s
  | binary => readBinary s
  | text => .ok (.str s)
  | _ => .error .malformedYaml

/-- Whether values of a kind are written as texts. -/
def isScalar : Kind → Bool
  | null | bool | int | float | timestamp | binary | text => true
  | _ => false

end Kind

end Questionnaire.Yaml
