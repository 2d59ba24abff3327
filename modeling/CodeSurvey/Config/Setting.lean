import CodeSurvey.Json.Basic
import CodeSurvey.Number.Numeral
import CodeSurvey.Text.Base64
import CodeSurvey.Text.Symbol

/-!
# Settings

A value that a setting is given, and how it is read as an integer, a string or a list. Reading is
lenient about the form of a number: a truth value, a decimal without a fraction and a text of digits
all stand for integers.
-/

namespace CodeSurvey

/-- A value that a setting is given. -/
inductive Setting where
  | flag (b : Bool)
  | number (n : Int)
  | decimal (x : Double)
  | text (t : Symbols)
  | bytes (l : List UInt8)
  | list (items : List Setting)
  /-- Nothing, a date, a dictionary, or a list inside a list. -/
  | other

/-- What is wrong with a value. -/
inductive Flaw where
  | belowLeast (least : Nat)
  | unreadable
  | fractional
  | notInteger
  | infinite
  | tooLarge
  | notList
  | notString
  /-- A string that has no form in bytes, or bytes that are no string. -/
  | notEncoded
  | unknownName
deriving DecidableEq, Repr

namespace Flaw

/-- The code of a flaw. -/
def code : Flaw → String
  | belowLeast _ => "greater_than_equal"
  | unreadable => "int_parsing"
  | fractional => "int_from_float"
  | notInteger => "int_type"
  | infinite => "finite_number"
  | tooLarge => "int_parsing_size"
  | notList => "list_type"
  | notString => "string_type"
  | notEncoded => "string_unicode"
  | unknownName => "extra_forbidden"

/-- What a flaw asks for instead. -/
def message : Flaw → String
  | belowLeast least => s!"Input should be greater than or equal to {least}"
  | unreadable => "Input should be a valid integer, unable to parse string as an integer"
  | fractional => "Input should be a valid integer, got a number with a fractional part"
  | notInteger => "Input should be a valid integer"
  | infinite => "Input should be a finite number"
  | tooLarge => "Unable to parse input string as an integer, exceeded maximum size"
  | notList => "Input should be a valid list"
  | notString => "Input should be a valid string"
  | notEncoded => "Input should be a valid string, unable to parse raw data as a unicode string"
  | unknownName => "Extra inputs are not permitted"

end Flaw

namespace Setting

mutual

/-- A document as a setting. -/
def ofJson : Json → Setting
  | .null => other
  | .bool b => flag b
  | .int n => number n
  | .real x => decimal x
  | .str s => text (.ofText s.toList)
  | .arr items => list (ofItems items)
  | .obj _ => other

/-- The items of a list as settings. -/
def ofItems : List Json → List Setting
  | [] => []
  | item :: items => ofJson item :: ofItems items

end

/-- Blank characters that may surround the digits of a number. -/
def isSurround (c : Char) : Bool :=
  let n := c.toNat
  (9 ≤ n && n ≤ 13) || n == 0x20 || n == 0x85 || n == 0xA0 || n == 0x1680
    || (0x2000 ≤ n && n ≤ 0x200A) || n == 0x2028 || n == 0x2029 || n == 0x202F || n == 0x205F
    || n == 0x3000

/-- A text without the blanks that surround it. -/
def unsurrounded (t : Text) : Text :=
  ((t.dropWhile isSurround).reverse.dropWhile isSurround).reverse

/-- What comes of reading an integer in its plain form. -/
inductive PlainInteger where
  | value (n : Int)
  | tooLong
  | unreadable
deriving DecidableEq, Repr

/-- The greatest number of digits of an integer in its plain form. -/
def numeralLimit : Nat := 4300

/-- The integer in front of a text: an optional minus sign, and digits of which the first is zero
only if it is the only one. Nothing may stand behind it, which is looked at last. -/
def plainInteger (t : Text) : PlainInteger :=
  let (negative, unsigned) := match t with
    | '-' :: rest => (true, rest)
    | rest => (false, rest)
  let digits := unsigned.takeWhile Char.isDigit
  if digits.isEmpty || (digits.head? == some '0' && digits.length ≠ 1) then .unreadable
  else if numeralLimit < digits.length then .tooLong
  else if digits.length ≠ unsigned.length then .unreadable
  else
    let n : Int := Decimal.digitsValue digits
    .value (if negative then -n else n)

/-- A numeral without the zeros and underscores in front of its first other digit or sign; one zero
stays where nothing else or a point follows. The first character is a digit. -/
def withoutZeros? (t : Text) : Option Text :=
  match t with
  | '0' :: rest =>
    let zeros := rest.takeWhile fun c => c == '0' || c == '_'
    let last := ('0' :: zeros).getLast?.toList
    match rest.drop zeros.length with
    | [] => some last
    | '.' :: more => some (last ++ '.' :: more)
    | c :: more => if c.isDigit || c == '-' then some (c :: more) else none
  | c :: _ => if c.isDigit then some t else none
  | [] => none

/-- A numeral without a fraction of zeros, of which there has to be one at least. -/
def withoutFraction (t : Text) : Text :=
  let whole := t.takeWhile (· != '.')
  let fraction := (t.drop whole.length).drop 1
  if !fraction.isEmpty && fraction.all (· == '0') then whole else t

/-- A numeral without its underscores, which stand alone between other characters. -/
def withoutUnderscores (t : Text) : Text :=
  let allowed := t.head? != some '_' && t.getLast? != some '_' && !Text.occursIn ['_', '_'] t
  if allowed then t.filter (· != '_') else t

/-- The plain form of a numeral: blanks around it, a sign, zeros in front, single underscores, and a
fraction of zeros are allowed. -/
def plainForm? (t : Text) : Option Text :=
  let digits? := fun digits => (withoutZeros? digits).map fun d =>
    withoutUnderscores (withoutFraction d)
  match unsurrounded t with
  | '+' :: '-' :: _ => none
  | '+' :: digits => digits? digits
  | '-' :: digits => (digits? digits).map ('-' :: ·)
  | digits => digits? digits

/-- The integer of a text. What is too long counts as such only if it is plain as it stands. -/
def integerOf (t : Text) : Except Flaw Int :=
  match plainInteger t with
  | .value n => .ok n
  | .tooLong => .error .tooLarge
  | .unreadable =>
    match (plainForm? t).map plainInteger with
    | some (.value n) => .ok n
    | _ => .error .unreadable

/-- A setting as an integer. -/
def toInt : Setting → Except Flaw Int
  | flag b => .ok (if b then 1 else 0)
  | number n => .ok n
  | decimal (.finite negative b) =>
    if !b.isWhole then .error .fractional
    else if b.toNat < Nat.pow 2 63 then .ok (if negative then -(b.toNat : Int) else b.toNat)
    else .error .tooLarge
  | decimal _ => .error .infinite
  | text t =>
    match t.toText? with
    | some t => integerOf t
    | none => .error .notEncoded
  | bytes l =>
    match Text.ofBytes? l with
    | some t => integerOf t
    | none => .error .unreadable
  | list _ => .error .notInteger
  | other => .error .notInteger

/-- A setting as an integer that is not below the least one. -/
def toIntFrom (least : Nat) (s : Setting) : Except Flaw Int :=
  match s.toInt with
  | .error flaw => .error flaw
  | .ok n => if n < least then .error (.belowLeast least) else .ok n

/-- A setting as a string, which need not have a form in bytes. -/
def toSymbols : Setting → Except Flaw Symbols
  | text t => .ok t
  | bytes l =>
    match Text.ofBytes? l with
    | some t => .ok (.ofText t)
    | none => .error .notEncoded
  | _ => .error .notString

end Setting

end CodeSurvey
