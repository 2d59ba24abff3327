import CodeSurvey.Text.Basic

/-!
# Decimal numbers

A sign, and digits with a power of ten, as numbers are written down.
-/

namespace CodeSurvey

/-- A decimal number: a sign, and digits with a power of ten. -/
structure Decimal where
  negative : Bool
  digits : Nat
  exponent : Int
deriving DecidableEq, Repr

namespace Decimal

/-- The value of a run of decimal digits. -/
def digitsValue (t : Text) : Nat :=
  t.foldl (fun n c => n * 10 + (c.toNat - '0'.toNat)) 0

/-- A number of thousandths. -/
def thousandths (n : Nat) : Decimal :=
  ⟨false, n, -3⟩

/-- The same number without zeros at the end of its digits. -/
def stripped (d : Decimal) : Decimal :=
  go d.digits d.digits d.exponent
where
  go : Nat → Nat → Int → Decimal
    | 0, digits, exponent => ⟨d.negative, digits, exponent⟩
    | fuel + 1, digits, exponent =>
      if digits == 0 then ⟨d.negative, 0, 0⟩
      else if digits % 10 == 0 then go fuel (digits / 10) (exponent + 1)
      else ⟨d.negative, digits, exponent⟩

/-- The shown form: positional from a ten-thousandth up to sixteen places before the point, with a
digit on either side of the point; otherwise scientific, with a signed exponent of two places. -/
def shown (d : Decimal) : Text :=
  let s := d.stripped
  let digits := Text.ofNat s.digits
  -- the place of the point, counted from the first digit
  let point : Int := digits.length + s.exponent
  let sign := if d.negative then ['-'] else []
  if s.digits == 0 then sign ++ "0.0".toList
  else if point > 16 || point < -3 then
    let e := point - 1
    let mantissa := match digits with
      | [] => []
      | [x] => [x]
      | x :: rest => x :: '.' :: rest
    let places := Text.ofNat e.natAbs
    sign ++ mantissa ++ ['e', if e < 0 then '-' else '+']
      ++ (if places.length < 2 then '0' :: places else places)
  else if point ≤ 0 then
    sign ++ "0.".toList ++ List.replicate (-point).toNat '0' ++ digits
  else
    let whole := point.toNat
    if digits.length ≤ whole then
      sign ++ digits ++ List.replicate (whole - digits.length) '0' ++ ".0".toList
    else sign ++ digits.take whole ++ '.' :: digits.drop whole

end Decimal

end CodeSurvey
