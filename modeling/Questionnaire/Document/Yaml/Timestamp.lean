/-
# Days and moments in YAML texts

A plain text is a day if it gives year, month and day with all their digits, or
a moment if it also gives a time, which may have a fraction of a second and a
time zone. Where a tag calls for a day, month and day may have one digit. One
line end after the text is allowed.

Key definitions: `Timestamp.ofChars?`, `Timestamp.isPlain`, `Timestamp.document?`.
-/
import Questionnaire.Document
import Questionnaire.Document.Yaml.Cursor

namespace Questionnaire.Yaml

/-- A text without one line end after it. -/
def withoutLineEnd (cs : List Char) : List Char :=
  if cs.getLast? == some '\n' then cs.dropLast else cs

/-- A time zone: whether it is behind, hours and minutes. -/
structure Zone where
  behind : Bool
  hours : Nat
  minutes : Nat
  deriving Repr

/-- The minutes by which a zone is ahead. -/
def Zone.ahead (z : Zone) : Int :=
  let total : Int := 60 * z.hours + z.minutes
  if z.behind then -total else total

/-- A time of day with the digits of a fraction of a second. -/
structure DayTime where
  hour : Nat
  minute : Nat
  second : Nat
  fraction : List Char := []
  zone : Option Zone := none
  deriving Repr

/-- A day, perhaps with a time. -/
structure Timestamp where
  day : Day
  time : Option DayTime := none
  deriving Repr

namespace Timestamp

/-- A number of so many digits, and what follows it. -/
def number? (least most : Nat) (cs : List Char) : Option (Nat × List Char) :=
  let ds := (cs.take most).takeWhile Char.isDigit
  if ds.length < least then none
  else some (ds.foldl (fun n d => 10 * n + (d.toNat - '0'.toNat)) 0, cs.drop ds.length)

/-- What follows a character. -/
def after? (c : Char) (cs : List Char) : Option (List Char) :=
  if cs.head? == some c then some cs.tail else none

/-- What follows the sign or the blanks between date and time. -/
def afterGap? (cs : List Char) : Option (List Char) :=
  match cs with
  | 'T' :: rest | 't' :: rest => some rest
  | c :: rest => if isSpaceOrTab c then some (rest.dropWhile isSpaceOrTab) else none
  | [] => none

/-- A time zone, which ends the text. -/
def zone? (cs : List Char) : Option (Option Zone) :=
  if cs.isEmpty then some none
  else
    let offset (behind : Bool) (rest : List Char) : Option (Option Zone) := do
      let (hours, rest) ← number? 1 2 rest
      if rest.isEmpty then return some ⟨behind, hours, 0⟩
      let (minutes, rest) ← number? 2 2 (← after? ':' rest)
      if rest.isEmpty then return some ⟨behind, hours, minutes⟩ else none
    match cs.dropWhile isSpaceOrTab with
    | ['Z'] => some (some ⟨false, 0, 0⟩)
    | '-' :: rest => offset true rest
    | '+' :: rest => offset false rest
    | _ => none

/-- A time of day, which ends the text. -/
def time? (cs : List Char) : Option DayTime := do
  let (hour, cs) ← number? 1 2 (← afterGap? cs)
  let (minute, cs) ← number? 2 2 (← after? ':' cs)
  let (second, cs) ← number? 2 2 (← after? ':' cs)
  let (fraction, cs) := match cs with
    | '.' :: rest => (rest.takeWhile Char.isDigit, rest.dropWhile Char.isDigit)
    | cs => ([], cs)
  return { hour, minute, second, fraction, zone := ← zone? cs }

/-- The day or moment that characters write. -/
def ofChars? (cs : List Char) : Option Timestamp := do
  let (year, cs) ← number? 4 4 (withoutLineEnd cs)
  let (month, cs) ← number? 1 2 (← after? '-' cs)
  let (day, rest) ← number? 1 2 (← after? '-' cs)
  let day : Day := ⟨year, month, day⟩
  if rest.isEmpty then return { day } else return { day, time := some (← time? rest) }

/-- Whether characters write a day with all its digits, or a moment. -/
def isPlain (cs : List Char) : Bool :=
  match ofChars? cs with
  | some ⟨_, some _⟩ => true
  | some ⟨_, none⟩ => (withoutLineEnd cs).length == 10
  | none => false

/-- The millionth parts of a second that the digits of a fraction give. -/
def micro (fraction : List Char) : Nat :=
  let digits := fraction.take 6 ++ List.replicate (6 - fraction.length) '0'
  digits.foldl (fun n d => 10 * n + (d.toNat - '0'.toNat)) 0

/-- The day or moment as a document, if there is one. -/
def document? (t : Timestamp) : Option Document :=
  match t.time with
  | none => if t.day.isReal then some (.day t.day) else none
  | some d =>
    let m : Moment := ⟨t.day, d.hour, d.minute, d.second, micro d.fraction, d.zone.map (·.ahead)⟩
    if m.isReal then some (.moment m) else none

end Timestamp

end Questionnaire.Yaml
