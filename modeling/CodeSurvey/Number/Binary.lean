/-!
# Binary fractions

Numbers of double precision: a whole number of at most 53 bits times a power of two.
`Binary.nearest` rounds a quotient to one of them, and `Binary.scaled` rounds one of them to a
decimal place.
-/

namespace CodeSurvey

/-- A quotient rounded to the nearest whole number, a half to the even one. -/
def roundedQuotient (n d : Nat) : Nat :=
  let q := n / d
  let r := n % d
  if 2 * r < d then q else if d < 2 * r then q + 1 else q + q % 2

/-- A whole number times a power of two. -/
structure Binary where
  mantissa : Nat
  exponent : Int
deriving DecidableEq, Repr

namespace Binary

/-- Whether a power of two is at most a quotient. -/
def powerLe (e : Int) (num den : Nat) : Bool :=
  if 0 ≤ e then den * Nat.pow 2 e.toNat ≤ num else den ≤ num * Nat.pow 2 (-e).toNat

/-- The exponent of the leading bit of a quotient. -/
def leadingExponent (num den : Nat) : Int :=
  let e : Int := num.log2 - den.log2
  if powerLe e num den then e else e - 1

/-- The number of double precision that is nearest to a quotient. -/
def nearest (num den : Nat) : Binary :=
  if num = 0 then ⟨0, 0⟩
  else
    let e := max (leadingExponent num den - 52) (-1074)
    if 0 ≤ e then ⟨roundedQuotient num (den * Nat.pow 2 e.toNat), e⟩
    else ⟨roundedQuotient (num * Nat.pow 2 (-e).toNat) den, e⟩

/-- Whether the number is whole. -/
def isWhole (b : Binary) : Bool :=
  0 ≤ b.exponent || b.mantissa % Nat.pow 2 (-b.exponent).toNat == 0

/-- The whole part of the number. -/
def toNat (b : Binary) : Nat :=
  if 0 ≤ b.exponent then b.mantissa * Nat.pow 2 b.exponent.toNat
  else b.mantissa / Nat.pow 2 (-b.exponent).toNat

/-- The number times a factor, rounded to a whole number. -/
def scaled (b : Binary) (factor : Nat) : Nat :=
  if 0 ≤ b.exponent then b.mantissa * factor * Nat.pow 2 b.exponent.toNat
  else roundedQuotient (b.mantissa * factor) (Nat.pow 2 (-b.exponent).toNat)

end Binary

end CodeSurvey
