import CodeSurvey.Yaml.Flaw

/-!
# Places in a settings file

A place in a file is what is still to be read, with the line and the column at which it stands. The
end of the file reads like a null character, which no file holds.
-/

namespace CodeSurvey.Yaml

/-- The character that stands for the end. -/
def endMark : Char := Char.ofNat 0

/-- A character that ends a line. -/
def isBreak (c : Char) : Bool :=
  c == '\n' || c == '\r' || c.toNat == 0x85 || c.toNat == 0x2028 || c.toNat == 0x2029

/-- The end of a line or of the file. -/
def isLineEnd (c : Char) : Bool :=
  isBreak c || c == endMark

/-- A space, or the end of a line or of the file. -/
def isSpaceOrEnd (c : Char) : Bool :=
  c == ' ' || isLineEnd c

/-- A space or a tab, or the end of a line or of the file. -/
def isBlankOrEnd (c : Char) : Bool :=
  c == '\t' || isSpaceOrEnd c

/-- The byte order mark, which takes no column. -/
def isByteOrderMark (c : Char) : Bool :=
  c.toNat == 0xFEFF

/-- Whether a character may stand in a file. -/
def isAllowed (c : Char) : Bool :=
  let n := c.toNat
  n == 9 || n == 10 || n == 13 || (0x20 ≤ n && n ≤ 0x7E) || n == 0x85 || (0xA0 ≤ n && n ≤ 0xFFFD)
    || 0x10000 ≤ n

/-- A place in a file. -/
structure Place where
  rest : Text
  index : Nat
  line : Nat
  column : Nat
deriving DecidableEq, Repr

namespace Place

/-- The start of a file. -/
def start (t : Text) : Place :=
  ⟨t, 0, 0, 0⟩

/-- The character so many places on. -/
def peek (p : Place) (n : Nat) : Char :=
  p.rest.getD n endMark

/-- The next character. -/
def next (p : Place) : Char :=
  p.rest.headD endMark

/-- The place behind the next character. -/
def advance (p : Place) : Place :=
  match p.rest with
  | [] => p
  | c :: rest =>
    if isBreak c then ⟨rest, p.index + 1, p.line + 1, 0⟩
    else ⟨rest, p.index + 1, p.line, if isByteOrderMark c then p.column else p.column + 1⟩

/-- The place so many characters on. -/
def skip : Nat → Place → Place
  | 0, p => p
  | n + 1, p => skip n p.advance

/-- The characters up to the first that is not accepted, and the place there. -/
def span (p : Place) (accepts : Char → Bool) : Text × Place :=
  let taken := p.rest.takeWhile accepts
  (taken, p.skip taken.length)

/-- The place of the first character that is not accepted. -/
def skipWhile (p : Place) (accepts : Char → Bool) : Place :=
  (p.span accepts).2

/-- A line break, as it counts in a text, and the place behind it. The Unicode separators stay as
they are, all others count as line feeds. -/
def lineBreak (p : Place) : Text × Place :=
  let c := p.next
  if c.toNat == 0x2028 || c.toNat == 0x2029 then ([c], p.advance)
  else if isBreak c then (['\n'], p.advance)
  else ([], p)

/-- Whether three characters stand here, with a blank or an end behind them. -/
def hasMark (p : Place) (c : Char) : Bool :=
  p.rest.take 3 == [c, c, c] && isBlankOrEnd (p.peek 3)

/-- Whether a document starts or ends here. -/
def atDocumentMark (p : Place) : Bool :=
  p.hasMark '-' || p.hasMark '.'

/-- The place behind spaces, a comment and a line break; nothing else may stand there. -/
def skipIgnoredLine (p : Place) : Result Place :=
  let p := p.skipWhile (· == ' ')
  let p := if p.next == '#' then p.skipWhile (!isBreak ·) else p
  if isLineEnd p.next then .ok p.lineBreak.2 else .error .malformed

end Place

end CodeSurvey.Yaml
