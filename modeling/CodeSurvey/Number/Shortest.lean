import CodeSurvey.Number.Double

/-!
# Shortest decimals

A number of double precision is written with the fewest decimal digits that still read back as the
same number. Of the decimals with that many digits the nearest one is taken.
-/

namespace CodeSurvey

namespace Binary

/-- The number as a quotient. -/
def quotient (b : Binary) : Nat × Nat :=
  if 0 ≤ b.exponent then (b.mantissa * Nat.pow 2 b.exponent.toNat, 1)
  else (b.mantissa, Nat.pow 2 (-b.exponent).toNat)

/-- Whether a power of ten is at most a quotient. -/
def tenPowerLe (e : Int) (num den : Nat) : Bool :=
  if 0 ≤ e then den * Nat.pow 10 e.toNat ≤ num else den ≤ num * Nat.pow 10 (-e).toNat

/-- The greatest power of ten that is at most a quotient, found upwards from a lower one. -/
def tenPowerFrom : Nat → Int → Nat → Nat → Int
  | 0, e, _, _ => e
  | fuel + 1, e, num, den =>
    if tenPowerLe (e + 1) num den then tenPowerFrom fuel (e + 1) num den else e

/-- The power of ten of the first decimal digit. The search starts from a power a little below what
the binary exponent allows: two is more than ten to the power of 0.3 and less than to that of
0.31. -/
def decimalExponent (num den : Nat) : Int :=
  let bits := leadingExponent num den
  let low := if 0 ≤ bits then (bits * 3).fdiv 10 else (bits * 31).fdiv 100
  tenPowerFrom 16 low num den

/-- A quotient in units of a power of ten, rounded down; also what is left, and of how much. -/
def unitsOf (e : Int) (num den : Nat) : Nat × Nat × Nat :=
  let (n, d) :=
    if 0 ≤ e then (num, den * Nat.pow 10 e.toNat) else (num * Nat.pow 10 (-e).toNat, den)
  (n / d, n % d, d)

/-- Whether a decimal reads back as the number. -/
def readsBack (b : Binary) (digits : Nat) (e : Int) : Bool :=
  Double.same (.ofDecimal ⟨false, digits, e⟩) (.finite false b)

/-- The decimal with so many digits that reads back as the number, if there is one: one of the two
neighbours of the number, and the nearer one if both do. -/
def withDigits? (b : Binary) (count : Nat) : Option Decimal :=
  let (num, den) := b.quotient
  let e := decimalExponent num den - count + 1
  let (below, rest, unit) := unitsOf e num den
  let lower := readsBack b below e
  let upper := readsBack b (below + 1) e
  if lower && (!upper || 2 * rest < unit || (2 * rest == unit && below % 2 == 0)) then
    some ⟨false, below, e⟩
  else if upper then some ⟨false, below + 1, e⟩
  else none

/-- The decimal with the fewest digits that reads back as the number. Seventeen are always
enough. -/
def shortest (b : Binary) : Decimal :=
  if b.mantissa = 0 then ⟨false, 0, 0⟩
  else ((List.range 17).findSome? fun n => withDigits? b (n + 1)).getD ⟨false, 0, 0⟩

end Binary

namespace Double

/-- The shown form of a number. -/
def shown : Double → Text
  | finite negative b => { b.shortest with negative := negative }.shown
  | infinite negative => (if negative then "-inf" else "inf").toList
  | notNumber => "nan".toList

end Double

end CodeSurvey
