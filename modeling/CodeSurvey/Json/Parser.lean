import CodeSurvey.Json.Basic

/-!
# Reading documents

`Json.parse?` reads the standard notation, and words for the numbers that are not finite. Every step
returns what is left to read; a count of steps, for which the length of the text is enough, bounds
the nesting and the lists.
-/

namespace CodeSurvey.Json

/-- A blank of the notation. -/
def isSpace (c : Char) : Bool :=
  c == ' ' || c == '\n' || c == '\r' || c == '\t'

/-- Without the blanks in front. -/
def skipSpace (t : Text) : Text :=
  t.dropWhile isSpace

/-- The value of a hexadecimal digit. -/
def hexValue? (c : Char) : Option Nat :=
  if '0' ≤ c && c ≤ '9' then some (c.toNat - '0'.toNat)
  else if 'a' ≤ c && c ≤ 'f' then some (c.toNat - 'a'.toNat + 10)
  else if 'A' ≤ c && c ≤ 'F' then some (c.toNat - 'A'.toNat + 10)
  else none

/-- Four hexadecimal digits. -/
def hexUnit? : Text → Option (Nat × Text)
  | a :: b :: c :: d :: rest => do
    let a ← hexValue? a
    let b ← hexValue? b
    let c ← hexValue? c
    let d ← hexValue? d
    pure (((a * 16 + b) * 16 + c) * 16 + d, rest)
  | _ => none

/-- The character an escape letter stands for. -/
def escape? : Char → Option Char
  | '"' => some '"'
  | '\\' => some '\\'
  | '/' => some '/'
  | 'b' => some (Char.ofNat 8)
  | 'f' => some (Char.ofNat 12)
  | 'n' => some '\n'
  | 'r' => some '\r'
  | 't' => some '\t'
  | _ => none

/-- The rest of a string behind its opening quote, with the characters read so far in reverse. A
character outside the basic plane is written as two units, of which neither may stand alone. -/
def string? : Nat → Text → Text → Option (Text × Text)
  | 0, _, _ => none
  | fuel + 1, acc, t =>
    match t with
    | [] => none
    | '"' :: rest => some (acc.reverse, rest)
    | '\\' :: 'u' :: rest =>
      match hexUnit? rest with
      | none => none
      | some (high, rest) =>
        if 0xD800 ≤ high && high < 0xDC00 then
          match rest with
          | '\\' :: 'u' :: rest' =>
            match hexUnit? rest' with
            | none => none
            | some (low, rest') =>
              if 0xDC00 ≤ low && low < 0xE000 then
                let n := 0x10000 + (high - 0xD800) * 0x400 + (low - 0xDC00)
                string? fuel (Char.ofNat n :: acc) rest'
              else none
          | _ => none
        else if 0xDC00 ≤ high && high < 0xE000 then none
        else string? fuel (Char.ofNat high :: acc) rest
    | '\\' :: c :: rest =>
      match escape? c with
      | none => none
      | some c => string? fuel (c :: acc) rest
    | c :: rest => string? fuel (c :: acc) rest

/-- A number: an integer unless it has a fraction or an exponent. -/
def number? (t : Text) : Option (Json × Text) :=
  let (negative, t) := match t with
    | '-' :: rest => (true, rest)
    | _ => (false, t)
  let whole := t.takeWhile Char.isDigit
  let rest := t.dropWhile Char.isDigit
  if whole.isEmpty then none
  else
    let (fraction, rest) := match rest with
      | '.' :: r => (r.takeWhile Char.isDigit, r.dropWhile Char.isDigit)
      | _ => ([], rest)
    let exponent : Option Int × Text := match rest with
      | e :: r =>
        if e == 'e' || e == 'E' then
          match r with
          | '-' :: r => (some (-(Decimal.digitsValue (r.takeWhile Char.isDigit) : Int)),
              r.dropWhile Char.isDigit)
          | '+' :: r => (some (Decimal.digitsValue (r.takeWhile Char.isDigit)),
              r.dropWhile Char.isDigit)
          | r => (some (Decimal.digitsValue (r.takeWhile Char.isDigit)),
              r.dropWhile Char.isDigit)
        else (none, rest)
      | [] => (none, rest)
    if fraction.isEmpty && exponent.1.isNone then
      let n : Int := Decimal.digitsValue whole
      some (int (if negative then -n else n), exponent.2)
    else
      let digits := Decimal.digitsValue (whole ++ fraction)
      some (real (.ofDecimal ⟨negative, digits, exponent.1.getD 0 - fraction.length⟩), exponent.2)

/-- A fixed word of the notation. -/
def word? (w : String) (value : Json) (t : Text) : Option (Json × Text) :=
  if w.toList.isPrefixOf t then some (value, t.drop w.length) else none

mutual

/-- A document. -/
def value? : Nat → Text → Option (Json × Text)
  | 0, _ => none
  | fuel + 1, t =>
    match skipSpace t with
    | [] => none
    | '"' :: rest => (string? (rest.length + 1) [] rest).map fun (s, rest) => (text s, rest)
    | '[' :: rest =>
      match skipSpace rest with
      | ']' :: rest => some (arr [], rest)
      | rest => (items? fuel rest).map fun (l, rest) => (arr l, rest)
    | '{' :: rest =>
      match skipSpace rest with
      | '}' :: rest => some (obj [], rest)
      | rest => (fields? fuel rest).map fun (l, rest) => (obj l, rest)
    | 'n' :: rest => word? "null" null ('n' :: rest)
    | 't' :: rest => word? "true" (bool true) ('t' :: rest)
    | 'f' :: rest => word? "false" (bool false) ('f' :: rest)
    | 'N' :: rest => word? "NaN" (real .notNumber) ('N' :: rest)
    | 'I' :: rest => word? "Infinity" (real (.infinite false)) ('I' :: rest)
    | '-' :: 'I' :: rest => word? "-Infinity" (real (.infinite true)) ('-' :: 'I' :: rest)
    | t => number? t

/-- The items of a list, up to its closing bracket. -/
def items? : Nat → Text → Option (List Json × Text)
  | 0, _ => none
  | fuel + 1, t =>
    match value? fuel t with
    | none => none
    | some (item, rest) =>
      match skipSpace rest with
      | ',' :: rest => (items? fuel rest).map fun (l, rest) => (item :: l, rest)
      | ']' :: rest => some ([item], rest)
      | _ => none

/-- The fields of an object, up to its closing brace. -/
def fields? : Nat → Text → Option (List (String × Json) × Text)
  | 0, _ => none
  | fuel + 1, t =>
    match skipSpace t with
    | '"' :: rest =>
      match string? (rest.length + 1) [] rest with
      | none => none
      | some (key, rest) =>
        match skipSpace rest with
        | ':' :: rest =>
          match value? fuel rest with
          | none => none
          | some (value, rest) =>
            match skipSpace rest with
            | ',' :: rest =>
              (fields? fuel rest).map fun (l, rest) => ((String.ofList key, value) :: l, rest)
            | '}' :: rest => some ([(String.ofList key, value)], rest)
            | _ => none
        | _ => none
    | _ => none

end

/-- The document a text stands for. -/
def parse? (t : Text) : Option Json :=
  match value? (t.length + 1) t with
  | some (j, rest) => if (skipSpace rest).isEmpty then some j else none
  | none => none

end CodeSurvey.Json
