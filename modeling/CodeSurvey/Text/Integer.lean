import CodeSurvey.Text.Blank
import CodeSurvey.Text.Digit

/-!
# Integers in text

Integers as people write them: blanks around, a sign, the sign of the base, digits of any script,
and single underscores between digits. `Text.readInt` reads one to a base, and `Text.toInt?` a
decimal one.
-/

namespace CodeSurvey.Text

/-- The value of a digit or a letter to a base. -/
def digitTo? (base : Nat) (c : Char) : Option Nat :=
  let value :=
    if c.isDigit then some (c.toNat - '0'.toNat)
    else if c.isLower then some (c.toNat - 'a'.toNat + 10)
    else if c.isUpper then some (c.toNat - 'A'.toNat + 10)
    else none
  value.filter (· < base)

/-- The greatest number of digits that are read, unless the base is a power of two. -/
def digitLimit : Nat := 4300

/-- Blanks that may stand around a number: all but the four separators of information. -/
def isNumberBlank (c : Char) : Bool :=
  isBlank c && !(0x1C ≤ c.toNat && c.toNat ≤ 0x1F)

/-- A text without the blanks that may stand around a number. -/
def trimNumber (t : Text) : Text :=
  ((t.dropWhile isNumberBlank).reverse.dropWhile isNumberBlank).reverse

/-- What comes of reading an integer. -/
inductive IntegerReading where
  | value (n : Int)
  /-- There are too many digits. -/
  | tooLong (digits : Nat)
  | unreadable
deriving DecidableEq, Repr

/-- A run of digits: what it is worth and how many there are, and the text behind it. -/
structure DigitRun where
  value : Nat
  count : Nat
  rest : Text
deriving DecidableEq, Repr

/-- The run of digits in front of a text, in which a single underscore may stand between two digits.
`afterDigit` says whether the character in front was a digit. -/
def digitRun? (base value count : Nat) (afterDigit : Bool) : Text → Option DigitRun
  | [] => if afterDigit then some ⟨value, count, []⟩ else none
  | c :: rest =>
    if c == '_' then
      if afterDigit then digitRun? base value count false rest else none
    else
      match digitTo? base c with
      | some d => digitRun? base (value * base + d) (count + 1) true rest
      | none => if afterDigit then some ⟨value, count, c :: rest⟩ else none

/-- The letter that tells a base. -/
def baseLetter? (base : Nat) : Option Char :=
  [(2, 'b'), (8, 'o'), (16, 'x')].lookup base

/-- A number without the sign of its base, behind which an underscore may stand. -/
def withoutBase (base : Nat) (t : Text) : Text :=
  match baseLetter? base, t with
  | some letter, '0' :: c :: rest =>
    if c == letter || c == letter.toUpper then
      match rest with
      | '_' :: digits => digits
      | digits => digits
    else t
  | _, _ => t

/-- Whether numbers to a base may be as long as one likes. -/
def isUnlimited (base : Nat) : Bool :=
  (baseLetter? base).isSome

/-- The integer to a base that a text stands for. -/
def readInt (base : Nat) (t : Text) : IntegerReading :=
  let trimmed := (t.map plainDigit).dropWhile isNumberBlank
  let (negative, unsigned) := match trimmed with
    | '-' :: rest => (true, rest)
    | '+' :: rest => (false, rest)
    | rest => (false, rest)
  match digitRun? base 0 0 false (withoutBase base unsigned) with
  | none => .unreadable
  | some run =>
    if !isUnlimited base && digitLimit < run.count then .tooLong run.count
    else if !run.rest.all isNumberBlank then .unreadable
    else .value (if negative then -(run.value : Int) else run.value)

/-- The decimal integer that a text stands for. -/
def toInt? (t : Text) : Option Int :=
  match readInt 10 t with
  | .value n => some n
  | _ => none

end CodeSurvey.Text
