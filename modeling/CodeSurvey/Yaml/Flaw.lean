import CodeSurvey.Text.Integer
import CodeSurvey.Text.Symbol

/-!
# What is wrong with a settings file

A file may break the rules of the format, or follow them and hold a value that cannot be converted.
Only the second kind says what is wrong.
-/

namespace CodeSurvey.Yaml

/-- Why a value cannot be converted. -/
inductive Misreading where
  /-- A word that is no truth value. -/
  | notTruth (word : Symbols)
  | notInteger (base : Nat) (t : Symbols)
  | tooManyDigits (count : Nat)
  /-- A number without a first character to look at. -/
  | noFirstDigit
  | notDecimal (t : Symbols)
  /-- A power of sixty beyond double precision. -/
  | tooManyParts
  /-- A number beyond all characters, and one beyond all words of the machine. -/
  | notCharacter
  | numberTooLarge
  | notDate
  /-- A date was asked for where a collection stands. -/
  | dateOfCollection
  | yearOutOfRange
  | monthOutOfRange
  | dayOutOfRange
  | hourOutOfRange
  | minuteOutOfRange
  | secondOutOfRange
  /-- An offset of a day or more. -/
  | offsetOutOfRange (minutes : Int)
  /-- A collection that is its own default value. -/
  | endlessDefault
  /-- Too many collections inside each other. -/
  | tooDeep
deriving DecidableEq, Repr

namespace Misreading

/-- The class of a misreading. -/
def className : Misreading → String
  | notTruth _ => "KeyError"
  | noFirstDigit => "IndexError"
  | tooManyParts | numberTooLarge => "OverflowError"
  | notDate => "AttributeError"
  | dateOfCollection => "TypeError"
  | endlessDefault | tooDeep => "RecursionError"
  | _ => "ValueError"

/-- The greatest number of characters of a text that the message for an integer quotes. -/
def quoteLimit : Nat := 200

/-- How an offset is shown: whole days, rounded down, and the seconds that are left. -/
def shownOffset (minutes : Int) : String :=
  let days := minutes.fdiv 1440
  let seconds := (minutes - days * 1440) * 60
  if seconds == 0 then s!"datetime.timedelta(days={days})"
  else s!"datetime.timedelta(days={days}, seconds={seconds})"

/-- The message of a misreading. -/
def message : Misreading → Text
  | notTruth word => word.quoted
  | notInteger base t =>
    s!"invalid literal for int() with base {base}: ".toList ++ (Symbols.quoted t).take quoteLimit
  | tooManyDigits count =>
    (s!"Exceeds the limit ({Text.digitLimit} digits) for integer string "
      ++ s!"conversion: value has {count} digits; "
      ++ "use sys.set_int_max_str_digits() to increase the limit").toList
  | noFirstDigit => "string index out of range".toList
  | notDecimal t => "could not convert string to float: ".toList ++ Symbols.quoted t
  | tooManyParts => "int too large to convert to float".toList
  | notCharacter => "chr() arg not in range(0x110000)".toList
  | numberTooLarge => "Python int too large to convert to C int".toList
  | notDate => "'NoneType' object has no attribute 'groupdict'".toList
  | dateOfCollection => "expected string or bytes-like object, got 'list'".toList
  | yearOutOfRange => "year 0 is out of range".toList
  | monthOutOfRange => "month must be in 1..12".toList
  | dayOutOfRange => "day is out of range for month".toList
  | hourOutOfRange => "hour must be in 0..23".toList
  | minuteOutOfRange => "minute must be in 0..59".toList
  | secondOutOfRange => "second must be in 0..59".toList
  | offsetOutOfRange minutes =>
    ("offset must be a timedelta strictly between "
      ++ "-timedelta(hours=24) and timedelta(hours=24), not " ++ shownOffset minutes ++ ".").toList
  | endlessDefault | tooDeep => "maximum recursion depth exceeded".toList

end Misreading

/-- What is wrong with a file. -/
inductive Flaw where
  /-- The file does not follow the format. -/
  | malformed
  | misread (m : Misreading)
deriving DecidableEq, Repr

/-- A result, or what is wrong. -/
abbrev Result (α : Type) := Except Flaw α

/-- The result for a value that cannot be converted. -/
def misread {α : Type} (m : Misreading) : Result α :=
  .error (.misread m)

end CodeSurvey.Yaml
