import CodeSurvey.Number.Double
import CodeSurvey.Text.Integer

/-!
# Numbers in text

Numbers of double precision as people write them: blanks around, a sign, digits of any script with
or without a point, and a power of ten; or a word for what is infinite or no number at all.
-/

namespace CodeSurvey

namespace Decimal

/-- The power of ten behind a number: a letter, an optional sign, and digits up to the end. -/
def exponent? : Text → Option Int
  | [] => some 0
  | mark :: rest =>
    let (negative, digits) := match rest with
      | '-' :: digits => (true, digits)
      | '+' :: digits => (false, digits)
      | digits => (false, digits)
    if (mark == 'e' || mark == 'E') && !digits.isEmpty && digits.all Char.isDigit then
      some (if negative then -(digitsValue digits : Int) else digitsValue digits)
    else none

/-- The decimal number of a text without a sign. There is at least one digit, on either side of the
point. -/
def ofUnsigned? (negative : Bool) (t : Text) : Option Decimal :=
  let whole := t.takeWhile Char.isDigit
  let behind := t.drop whole.length
  let fraction := match behind with
    | '.' :: rest => rest.takeWhile Char.isDigit
    | _ => []
  let tail := match behind with
    | '.' :: rest => rest.drop fraction.length
    | rest => rest
  if whole.isEmpty && fraction.isEmpty then none
  else
    (exponent? tail).map fun e =>
      ⟨negative, digitsValue (whole ++ fraction), e - fraction.length⟩

end Decimal

namespace Double

/-- The number of a text without a sign. -/
def ofUnsigned? (negative : Bool) (t : Text) : Option Double :=
  let word := t.map Char.toLower
  if word = "inf".toList || word = "infinity".toList then some (infinite negative)
  else if word = "nan".toList then some notNumber
  else (Decimal.ofUnsigned? negative t).map ofDecimal

/-- The number that a text stands for. -/
def ofText? (t : Text) : Option Double :=
  match (Text.trimNumber t).map Text.plainDigit with
  | '-' :: rest => ofUnsigned? true rest
  | '+' :: rest => ofUnsigned? false rest
  | rest => ofUnsigned? false rest

end Double

end CodeSurvey
