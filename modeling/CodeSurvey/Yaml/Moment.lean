import CodeSurvey.Number.Numeral
import CodeSurvey.Yaml.Flaw
import CodeSurvey.Yaml.Kind

/-!
# Dates and times

A date, or a date with a time of day, which may give its offset from universal time. Times with an
offset are told by the moment they name, so that two spellings of one moment are the same.
-/

namespace CodeSurvey.Yaml

/-- A day, a time without an offset, or a moment of universal time; times are in microseconds. -/
inductive Moment where
  | day (number : Nat)
  | localTime (microseconds : Nat)
  | instant (microseconds : Int)
deriving DecidableEq, Repr

namespace Moment

/-- A year with a day more than others. -/
def isLeap (year : Nat) : Bool :=
  year % 4 == 0 && (year % 100 != 0 || year % 400 == 0)

/-- The number of days of a month. -/
def daysOf (year month : Nat) : Nat :=
  if month == 2 then (if isLeap year then 29 else 28)
  else if [4, 6, 9, 11].contains month then 30 else 31

/-- The number of a day: the days of all years and months before it, and its own place. -/
def dayNumber (year month day : Nat) : Nat :=
  let past := year - 1
  let months := (List.range (month - 1)).map fun m => daysOf year (m + 1)
  past * 365 + past / 4 - past / 100 + past / 400 + months.foldl (· + ·) 0 + day

/-- The number of a day of the calendar, one part checked after the other. -/
def checkedDay (year month day : Nat) : Result Nat :=
  if year == 0 then misread .yearOutOfRange
  else if month < 1 || 12 < month then misread .monthOutOfRange
  else if day < 1 || daysOf year month < day then misread .dayOutOfRange
  else .ok (dayNumber year month day)

/-- The seconds of a time of day, one part checked after the other. -/
def checkedSeconds (hour minute second : Nat) : Result Nat :=
  if 23 < hour then misread .hourOutOfRange
  else if 59 < minute then misread .minuteOutOfRange
  else if 59 < second then misread .secondOutOfRange
  else .ok (hour * 3600 + minute * 60 + second)

/-- The minutes of an offset of less than a day. -/
def checkedOffset (negative : Bool) (hours minutes : Nat) : Result Int :=
  let total : Int := hours * 60 + minutes
  let offset := if negative then -total else total
  if total < 1440 then .ok offset else misread (.offsetOutOfRange offset)

/-- The microseconds of the digits behind the point, of which six count. -/
def microseconds (fraction : Text) : Nat :=
  let digits := fraction.take 6
  Decimal.digitsValue digits * Nat.pow 10 (6 - digits.length)

/-- The moment that a text names. -/
def ofText (t : Text) : Result Moment := do
  match Kind.dateParts.matchAt? t 0 with
  | none => misread .notDate
  | some m =>
    let part := fun role => Decimal.digitsValue ((m.group? role).getD [])
    let date := checkedDay (part "year") (part "month") (part "day")
    if (m.group? "hour").isNone then
      return .day (← date)
    else
      let offset ← checkedOffset (m.group? "offsetSign" == some ['-']) (part "offsetHour")
        (part "offsetMinute")
      let number ← date
      let seconds ← checkedSeconds (part "hour") (part "minute") (part "second")
      let time := (number * 86400 + seconds) * 1000000
        + microseconds ((m.group? "fraction").getD [])
      return if (m.group? "zone").isNone then .localTime time
        else .instant (time - offset * 60000000)

end Moment

end CodeSurvey.Yaml
