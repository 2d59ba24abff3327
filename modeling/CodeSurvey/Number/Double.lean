import CodeSurvey.Number.Binary
import CodeSurvey.Number.Decimal

/-!
# Numbers of double precision

A number is finite, infinite or none at all. Sums and products are exact numbers rounded once, to
the nearest number of double precision; what is too large becomes infinite.
-/

namespace CodeSurvey

/-- A number of double precision. -/
inductive Double where
  | finite (negative : Bool) (magnitude : Binary)
  | infinite (negative : Bool)
  | notNumber
deriving DecidableEq, Repr

namespace Double

/-- Zero. -/
def zero : Double :=
  .finite false ⟨0, 0⟩

/-- Whether a number is zero, of either sign. -/
def isZero : Double → Bool
  | finite _ b => b.mantissa == 0
  | _ => false

/-- The nearest number to a quotient. -/
def ofQuotient (negative : Bool) (num den : Nat) : Double :=
  let b := Binary.nearest num den
  if Nat.pow 2 1024 ≤ b.toNat then .infinite negative else .finite negative b

/-- The nearest number to an integer. -/
def ofInt (n : Int) : Double :=
  ofQuotient (n < 0) n.natAbs 1

/-- A power of ten far beyond every number of double precision, and whose inverse is far below. -/
def farExponent : Nat := 400

/-- The nearest number to a decimal one. Digits that stand too far from the point are not looked
at: such a number is infinite or zero. -/
def ofDecimal (d : Decimal) : Double :=
  let places := (Text.ofNat d.digits).length + d.exponent
  if d.digits = 0 || places < -farExponent then .finite d.negative ⟨0, 0⟩
  else if farExponent < places then .infinite d.negative
  else if 0 ≤ d.exponent then ofQuotient d.negative (d.digits * Nat.pow 10 d.exponent.toNat) 1
  else ofQuotient d.negative d.digits (Nat.pow 10 (-d.exponent).toNat)

/-- The number as a whole number of a negative power of two. -/
def scaledBy (places : Nat) (negative : Bool) (b : Binary) : Int :=
  let n : Int := b.mantissa * Int.pow 2 (b.exponent + places).toNat
  if negative then -n else n

/-- The number of binary places behind the point. -/
def places (b : Binary) : Nat :=
  (-b.exponent).toNat

/-- The number with the other sign. -/
def neg : Double → Double
  | finite negative b => finite (!negative) b
  | infinite negative => infinite (!negative)
  | notNumber => notNumber

/-- The sum, rounded. -/
def add : Double → Double → Double
  | finite m a, finite n b =>
    let p := max (places a) (places b)
    let sum := scaledBy p m a + scaledBy p n b
    ofQuotient (sum < 0) sum.natAbs (Nat.pow 2 p)
  | notNumber, _ | _, notNumber => notNumber
  | infinite m, infinite n => if m = n then infinite m else notNumber
  | infinite m, finite _ _ => infinite m
  | finite _ _, infinite n => infinite n

/-- The difference, rounded. -/
def sub (x y : Double) : Double :=
  x.add y.neg

/-- The product, rounded. Nothing times the infinite is no number. -/
def mul : Double → Double → Double
  | finite m a, finite n b =>
    let product := scaledBy (places a) false a * scaledBy (places b) false b
    ofQuotient (m != n) product.natAbs (Nat.pow 2 (places a + places b))
  | notNumber, _ | _, notNumber => notNumber
  | infinite m, infinite n => infinite (m != n)
  | infinite m, finite n b => if b.mantissa = 0 then notNumber else infinite (m != n)
  | finite m a, infinite n => if a.mantissa = 0 then notNumber else infinite (m != n)

/-- Whether a number is less than another. -/
def less : Double → Double → Bool
  | finite m a, finite n b =>
    let p := max (places a) (places b)
    scaledBy p m a < scaledBy p n b
  | notNumber, _ | _, notNumber => false
  | infinite m, infinite n => m && !n
  | infinite m, finite _ _ => m
  | finite _ _, infinite n => !n

/-- Whether two numbers are equal in value, whatever the sign of a zero. -/
def same : Double → Double → Bool
  | finite m a, finite n b =>
    let p := max (places a) (places b)
    scaledBy p m a == scaledBy p n b
  | infinite m, infinite n => m == n
  | _, _ => false

/-- The integer that a finite number without a fraction is. -/
def toInt? : Double → Option Int
  | finite negative b =>
    if b.isWhole then some (if negative then -(b.toNat : Int) else b.toNat) else none
  | _ => none

end Double

end CodeSurvey
