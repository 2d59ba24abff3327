import CodeSurvey.Number.Numeral
import CodeSurvey.Yaml.Flaw

/-!
# Truth values and numbers

How a text is read that is known to stand for a truth value, an integer or a number with a point.
Underscores in a number do not count. A sign is taken off before the notation is looked at, so that
what is behind it may have a sign of its own.
-/

namespace CodeSurvey.Yaml

/-- The truth value of a text. -/
def readTruth (t : Symbols) : Result Bool :=
  let word := t.lower
  if ["yes", "true", "on"].any fun s => .ofText s.toList = word then .ok true
  else if ["no", "false", "off"].any fun s => .ofText s.toList = word then .ok false
  else misread (.notTruth word)

/-- A number without its underscores. -/
def withoutLines (t : Symbols) : Symbols :=
  t.filter (· ≠ .char '_')

/-- A numeral without its sign, and whether the sign is negative. -/
def splitSign (t : Symbols) : Result (Bool × Symbols) :=
  match t with
  | [] => misread .noFirstDigit
  | .char '-' :: rest => .ok (true, rest)
  | .char '+' :: rest => .ok (false, rest)
  | rest => .ok (false, rest)

/-- The pieces of a text between colons. -/
def colonParts : Symbols → List Symbols
  | [] => [[]]
  | c :: rest =>
    match colonParts rest with
    | [] => [[c]]
    | piece :: pieces =>
      if c = .char ':' then [] :: piece :: pieces else (c :: piece) :: pieces

/-- The integer of a text to a base. -/
def readDigits (base : Nat) (t : Symbols) : Result Int :=
  match Text.readInt base t.legible with
  | .value n => .ok n
  | .tooLong count => misread (.tooManyDigits count)
  | .unreadable => misread (.notInteger base t)

/-- The magnitude of an integer in any of its notations. -/
def readMagnitude (t : Symbols) : Result Int :=
  match t with
  | [] => misread .noFirstDigit
  | [.char '0'] => .ok 0
  | .char '0' :: .char 'b' :: rest => readDigits 2 rest
  | .char '0' :: .char 'x' :: rest => readDigits 16 rest
  | .char '0' :: rest => readDigits 8 (.char '0' :: rest)
  | _ =>
    if t.contains (.char ':') then
      ((colonParts t).mapM (readDigits 10)).map (·.foldl (fun n part => n * 60 + part) 0)
    else readDigits 10 t

/-- The integer of a text. -/
def readInteger (t : Symbols) : Result Int := do
  let (negative, magnitude) ← splitSign (withoutLines t)
  let n ← readMagnitude magnitude
  return if negative then -n else n

/-- The number of a text. -/
def readNumber (t : Symbols) : Result Double :=
  match Double.ofText? t.legible with
  | some x => .ok x
  | none => misread (.notDecimal t)

/-- The sum of some numbers, each times a power of sixty, from the lowest on. -/
def sumSixtieths (sum : Double) (power : Nat) : List Double → Result Double
  | [] => .ok sum
  | x :: rest =>
    match Double.ofInt power with
    | .infinite _ => misread .tooManyParts
    | factor => sumSixtieths (sum.add (x.mul factor)) (power * 60) rest

/-- A number with a point; one and the same sign stands for no number at all. -/
inductive Quantity where
  | number (x : Double)
  | noNumberSign
deriving DecidableEq, Repr

/-- The magnitude of a number with a point in any of its notations. -/
def readUnsigned (t : Symbols) : Result Double := do
  if t.contains (.char ':') then
    let parts ← (colonParts t).mapM readNumber
    sumSixtieths .zero 1 parts.reverse
  else readNumber t

/-- The number with a point of a text. -/
def readQuantity (t : Symbols) : Result Quantity := do
  let (negative, magnitude) ← splitSign (withoutLines t).lower
  if magnitude = .ofText ".inf".toList then return .number (.infinite negative)
  else if magnitude = .ofText ".nan".toList then return .noNumberSign
  else
    let x ← readUnsigned magnitude
    return .number (if negative then x.neg else x)

end CodeSurvey.Yaml
