import CodeSurvey.Number.Shortest

/-!
# Amounts

Sizes and times are whole numbers or numbers of double precision. Whole numbers are exact, also
where they are compared with others; only the difference of two numbers that are not both whole is
rounded, and there is none if a whole number is beyond double precision.
-/

namespace CodeSurvey

/-- A whole number or one of double precision. -/
inductive Amount where
  | whole (n : Int)
  | real (x : Double)
deriving DecidableEq, Repr

namespace Amount

/-- The nearest number of double precision, unless the amount is beyond all of them. -/
def toDouble? : Amount → Option Double
  | whole n =>
    match Double.ofInt n with
    | .infinite _ => none
    | x => some x
  | real x => some x

/-- The amount as a number without a limit to its bits. -/
def exact : Amount → Double
  | whole n => .finite (n < 0) ⟨n.natAbs, 0⟩
  | real x => x

/-- The difference. -/
def sub? : Amount → Amount → Option Amount
  | whole m, whole n => some (whole (m - n))
  | a, b =>
    match a.toDouble?, b.toDouble? with
    | some x, some y => some (real (x.sub y))
    | _, _ => none

/-- Whether an amount is less than another. -/
def less : Amount → Amount → Bool
  | whole m, whole n => m < n
  | a, b => a.exact.less b.exact

/-- Whether two amounts are equal. -/
def same : Amount → Amount → Bool
  | whole m, whole n => m == n
  | a, b => a.exact.same b.exact

/-- Whether an amount is less than another or equal to it. -/
def atMost : Amount → Amount → Bool
  | whole m, whole n => m ≤ n
  | a, b => a.less b || a.same b

end Amount

end CodeSurvey
