import CodeSurvey.Text.Case
import CodeSurvey.Text.Quoted

/-!
# Symbols

A text that gives its characters by number can hold one half of a surrogate pair on its own, which
is no character. Such a text is a list of symbols. It can be quoted and compared, but it has no
form in bytes.
-/

namespace CodeSurvey

/-- A character, or one half of a surrogate pair. -/
inductive Symbol where
  | char (c : Char)
  | half (code : Nat)
deriving DecidableEq, Repr

/-- A text that may hold halves of surrogate pairs. -/
abbrev Symbols := List Symbol

namespace Symbol

/-- The symbol of a code point. -/
def ofCode (n : Nat) : Symbol :=
  if 0xD800 ≤ n && n ≤ 0xDFFF then half n else char (Char.ofNat n)

/-- The character of a symbol. -/
def char? : Symbol → Option Char
  | char c => some c
  | half _ => none

/-- A symbol between quotes of the given kind. A half cannot be printed. -/
def quoted (quote : Char) : Symbol → Text
  | char c => Text.quotedChar quote c
  | half n => '\\' :: 'u' :: Text.hexDigits 4 n

/-- The character of a symbol, or the one that stands for what cannot be shown. -/
def legible : Symbol → Char
  | char c => c
  | half _ => Char.ofNat 0xFFFD

end Symbol

namespace Symbols

/-- A text as symbols. -/
def ofText (t : Text) : Symbols :=
  t.map .char

/-- The text that symbols make up, if there is no half among them. -/
def toText? (s : Symbols) : Option Text :=
  s.mapM Symbol.char?

/-- The text with a replacement for every half. -/
def legible (s : Symbols) : Text :=
  s.map Symbol.legible

/-- The symbols between quotes. -/
def quoted (s : Symbols) : Text :=
  let quote := Text.quoteFor (legible s)
  quote :: s.flatMap (Symbol.quoted quote) ++ [quote]

/-- The symbols in lower case. A half has no case, and the case of a word does not reach over
it. -/
def lower (s : Symbols) : Symbols :=
  go [] s
where
  /-- Lower case, given the characters behind the last half, nearest first. -/
  go : Text → Symbols → Symbols
    | before, [] => ofText (Text.lower before.reverse)
    | before, .char c :: rest => go (c :: before) rest
    | before, .half n :: rest => ofText (Text.lower before.reverse) ++ .half n :: go [] rest

end Symbols

end CodeSurvey
