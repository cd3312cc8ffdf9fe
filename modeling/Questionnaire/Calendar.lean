/-
# Days and moments

A day is a year, a month and a day of it; a moment is a day with a time and
perhaps a time zone. Moments with time zones are the same if they are the same
instant, whatever the zones; a moment with a zone is never the same as one
without.

Key definitions: `Day.isReal`, `Moment.isReal`, `Moment.same`, `Moment.less?`.
-/

namespace Questionnaire

/-- A number with at least so many digits. -/
def padded (width n : Nat) : String :=
  let digits := toString n
  String.ofList (List.replicate (width - digits.length) '0') ++ digits

/-- A day of the calendar. -/
structure Day where
  year : Nat
  month : Nat
  day : Nat
  deriving DecidableEq, Repr, Inhabited

namespace Day

/-- Whether a year has a leap day. -/
def isLeap (year : Nat) : Bool := year % 4 == 0 && (year % 100 != 0 || year % 400 == 0)

/-- The days of a month. -/
def daysIn (year month : Nat) : Nat :=
  if month = 2 then if isLeap year then 29 else 28
  else if month = 4 ∨ month = 6 ∨ month = 9 ∨ month = 11 then 30 else 31

/-- Whether there is such a day. -/
def isReal (d : Day) : Bool :=
  1 ≤ d.year && 1 ≤ d.month && d.month ≤ 12 && 1 ≤ d.day && d.day ≤ daysIn d.year d.month

/-- The number of the day, counted from the first day of the year one. -/
def number (d : Day) : Nat :=
  let years := d.year - 1
  let months := ((List.range (d.month - 1)).map fun m => daysIn d.year (m + 1)).foldl (· + ·) 0
  365 * years + years / 4 - years / 100 + years / 400 + months + d.day

/-- A day in its usual form. -/
def text (d : Day) : String := padded 4 d.year ++ "-" ++ padded 2 d.month ++ "-" ++ padded 2 d.day

/-- The parts of a day as a message gives them. -/
def parts (d : Day) : List String := [toString d.year, toString d.month, toString d.day]

/-- A day as a message gives it inside other values. -/
def shown (d : Day) : String := "datetime.date(" ++ ", ".intercalate d.parts ++ ")"

end Day

/-- A day with a time. The zone is the number of minutes by which it is ahead. -/
structure Moment where
  day : Day
  hour : Nat
  minute : Nat
  second : Nat
  micro : Nat
  zone : Option Int
  deriving DecidableEq, Repr, Inhabited

namespace Moment

/-- The minutes of a day. -/
def dayMinutes : Nat := 1440

/-- Whether there is such a time, in a zone less than a day away. -/
def isReal (m : Moment) : Bool :=
  m.day.isReal && m.hour < 24 && m.minute < 60 && m.second < 60 &&
    m.zone.all fun z => z.natAbs < dayMinutes

/-- The millionth parts of a second up to the moment, by the clocks of its zone or by those of
the zone that is not ahead. -/
def instant (m : Moment) : Int :=
  let minutes : Int := dayMinutes * m.day.number + 60 * m.hour + m.minute - m.zone.getD 0
  (minutes * 60 + m.second) * 1000000 + m.micro

/-- Whether two moments are the same. -/
def same (a b : Moment) : Bool := a.zone.isSome == b.zone.isSome && a.instant == b.instant

/-- Whether a moment is before another one. One with a zone and one without have no order. -/
def less? (a b : Moment) : Option Bool :=
  if a.zone.isSome == b.zone.isSome then some (decide (a.instant < b.instant)) else none

/-- A zone as hours and minutes. -/
def zoneText (z : Int) : String :=
  (if z < 0 then "-" else "+") ++ padded 2 (z.natAbs / 60) ++ ":" ++ padded 2 (z.natAbs % 60)

/-- A moment in its usual form. -/
def text (m : Moment) : String :=
  m.day.text ++ " " ++ padded 2 m.hour ++ ":" ++ padded 2 m.minute ++ ":" ++ padded 2 m.second ++
    (if m.micro = 0 then "" else "." ++ padded 6 m.micro) ++ m.zone.elim "" zoneText

/-- A zone as a message gives it: days and seconds, of which the seconds are not negative. -/
def zoneShown (z : Int) : String :=
  if z = 0 then "datetime.timezone.utc"
  else
    let seconds := (z % dayMinutes) * 60
    let parts := (if z < 0 then ["days=-1"] else []) ++
      (if seconds = 0 then [] else ["seconds=" ++ toString seconds])
    "datetime.timezone(datetime.timedelta(" ++ ", ".intercalate parts ++ "))"

/-- A moment as a message gives it inside other values. Seconds that are zero are left out. -/
def shown (m : Moment) : String :=
  let small := if m.micro ≠ 0 then [m.second, m.micro] else if m.second ≠ 0 then [m.second] else []
  let parts := m.day.parts ++ ([m.hour, m.minute] ++ small).map toString ++
    (m.zone.map fun z => "tzinfo=" ++ zoneShown z).toList
  "datetime.datetime(" ++ ", ".intercalate parts ++ ")"

end Moment

example : (Day.mk 2001 1 1).number = 730486 := by decide
example : (Moment.mk ⟨2001, 1, 1⟩ 0 0 0 0 (some 0)).same ⟨⟨2001, 1, 1⟩, 1, 0, 0, 0, some 60⟩ := by
  decide

end Questionnaire
