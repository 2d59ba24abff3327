import CodeSurvey.Yaml.Token

/-!
# Scalars

The texts in a settings file: plain, between quotes of two kinds, and in blocks. A single line break
inside a scalar counts as a space, except in literal blocks; further ones are kept.
-/

namespace CodeSurvey.Yaml

/-- A line break between two parts of a text, with the further breaks behind it. -/
def folded (first breaks : Text) : Text :=
  (if first ≠ ['\n'] then first else if breaks.isEmpty then [' '] else []) ++ breaks

namespace Quoted

/-- Line breaks and blanks behind a line break; no document may start or end there. -/
def breaks : Nat → Place → Result (Text × Place)
  | 0, p => .ok ([], p)
  | fuel + 1, p =>
    if p.atDocumentMark then .error .malformed
    else
      let p := p.skipWhile fun c => c == ' ' || c == '\t'
      if isBreak p.next then
        (breaks fuel p.lineBreak.2).map fun r => (p.lineBreak.1 ++ r.1, r.2)
      else .ok ([], p)

/-- The blanks at a place, or the line break they run into. -/
def spaces (p : Place) : Result (Text × Place) :=
  let (blanks, p) := p.span fun c => c == ' ' || c == '\t'
  if p.next == endMark then .error .malformed
  else if isBreak p.next then
    (breaks (p.rest.length + 1) p.lineBreak.2).map fun r => (folded p.lineBreak.1 r.1, r.2)
  else .ok (blanks, p)

/-- The character that a letter behind a backslash stands for. -/
def escape? (c : Char) : Option Char :=
  [('0', 0), ('a', 7), ('b', 8), ('t', 9), ('\t', 9), ('n', 10), ('v', 11), ('f', 12), ('r', 13),
    ('e', 0x1B), (' ', 0x20), ('"', 0x22), ('\\', 0x5C), ('/', 0x2F), ('N', 0x85), ('_', 0xA0),
    ('L', 0x2028), ('P', 0x2029)].lookup c |>.map Char.ofNat

/-- The number of digits behind a letter that introduces a number. -/
def escapeDigits? (c : Char) : Option Nat :=
  [('x', 2), ('u', 4), ('U', 8)].lookup c

/-- A symbol written by its number of so many digits. -/
def numbered (digits : Nat) (p : Place) : Result (Symbols × Place) :=
  let written := p.rest.take digits
  match hexValue? written with
  | none => .error .malformed
  | some n =>
    if written.length ≠ digits then .error .malformed
    else if 0x80000000 ≤ n then misread .numberTooLarge
    else if 0x110000 ≤ n then misread .notCharacter
    else .ok ([Symbol.ofCode n], p.skip digits)

/-- What a backslash introduces. -/
def escaped (p : Place) : Result (Symbols × Place) :=
  let c := p.next
  match escape? c, escapeDigits? c with
  | some x, _ => .ok ([.char x], p.advance)
  | none, some n => numbered n p.advance
  | none, none =>
    if isBreak c then
      (breaks (p.rest.length + 1) p.lineBreak.2).map fun r => (Symbols.ofText r.1, r.2)
    else .error .malformed

/-- Symbols up to a blank, a line end or the closing quote. -/
def solid (quote : Char) : Nat → Place → Result (Symbols × Place)
  | 0, p => .ok ([], p)
  | fuel + 1, p =>
    let c := p.next
    if isBlankOrEnd c then .ok ([], p)
    else if c == '\'' && quote == '\'' then
      if p.peek 1 == '\'' then (solid quote fuel (p.skip 2)).map fun r => (.char '\'' :: r.1, r.2)
      else .ok ([], p)
    else if c == quote then .ok ([], p)
    else if c == '\\' && quote == '"' then
      match escaped p.advance with
      | .error e => .error e
      | .ok (t, p) => (solid quote fuel p).map fun r => (t ++ r.1, r.2)
    else (solid quote fuel p.advance).map fun r => (.char c :: r.1, r.2)

/-- The text up to the closing quote, and the place behind it. -/
def content (quote : Char) : Nat → Place → Result (Symbols × Place)
  | 0, _ => .error .malformed
  | fuel + 1, p =>
    match solid quote (p.rest.length + 1) p with
    | .error e => .error e
    | .ok (t, p) =>
      if p.next == quote then .ok (t, p.advance)
      else
        match spaces p with
        | .error e => .error e
        | .ok (gap, p) =>
          (content quote fuel p).map fun r => (t ++ Symbols.ofText gap ++ r.1, r.2)

end Quoted

/-- A text between quotes. -/
def scanQuoted (p : Place) : Result (Token × Place) :=
  (Quoted.content p.next (p.rest.length + 1) p.advance).map fun r => (.scalar r.1 false, r.2)

namespace Block

/-- How the line breaks at the end of a block are kept: one, none, or all. -/
inductive Chomping where
  | clip
  | strip
  | keep
deriving DecidableEq, Repr

/-- The chomping that a sign asks for. -/
def chomping? (c : Char) : Option Chomping :=
  if c == '+' then some .keep else if c == '-' then some .strip else none

/-- The step of indentation that a digit asks for. -/
def increment? (c : Char) : Option Nat :=
  if c.isDigit then some (c.toNat - '0'.toNat) else none

/-- The head of a block: chomping and indentation in either order. -/
def head (p : Place) : Result (Chomping × Option Nat × Place) :=
  let (chomping, increment, p) :=
    match chomping? p.next, increment? p.next with
    | some c, _ =>
      match increment? p.advance.next with
      | some n => (c, some n, p.skip 2)
      | none => (c, none, p.advance)
    | none, some n =>
      match chomping? p.advance.next with
      | some c => (c, some n, p.skip 2)
      | none => (.clip, some n, p.advance)
    | none, none => (.clip, none, p)
  if increment == some 0 || !isSpaceOrEnd p.next then .error .malformed
  else .ok (chomping, increment, p)

/-- Empty lines, and the greatest indentation among them and the line behind them. -/
def leading : Nat → Nat → Place → Text × Nat × Place
  | 0, widest, p => ([], widest, p)
  | fuel + 1, widest, p =>
    if p.next == ' ' then leading fuel (max widest p.advance.column) p.advance
    else if isBreak p.next then
      let (breaks, widest, q) := leading fuel widest p.lineBreak.2
      (p.lineBreak.1 ++ breaks, widest, q)
    else ([], widest, p)

/-- The place behind spaces, at most up to a column. -/
def skipIndent (indent : Nat) (p : Place) : Place :=
  p.skip (min (indent - p.column) (p.rest.takeWhile (· == ' ')).length)

/-- Empty lines, up to the indentation of the next line. -/
def breaks (indent : Nat) : Nat → Place → Text × Place
  | 0, p => ([], p)
  | fuel + 1, p =>
    let p := skipIndent indent p
    if isBreak p.next then
      let (more, q) := breaks indent fuel p.lineBreak.2
      (p.lineBreak.1 ++ more, q)
    else ([], p)

/-- Whether a line of the block stands here. -/
def onLine (indent : Nat) (p : Place) : Bool :=
  p.column == indent && p.next != endMark

/-- Whether a character is a blank. -/
def isGap (c : Char) : Bool :=
  c == ' ' || c == '\t'

/-- The lines of a block from a place on which one stands, given the empty lines before it. -/
def lines (fold : Bool) (chomping : Chomping) (indent : Nat) : Nat → Text → Place → Text × Place
  | 0, _, p => ([], p)
  | fuel + 1, before, p =>
    let solid := !isGap p.next
    let (line, p) := p.span (!isBreak ·)
    let (lineBreak, p) := p.lineBreak
    let (empty, p) := breaks indent (p.rest.length + 1) p
    if onLine indent p then
      let joint :=
        if fold && lineBreak == ['\n'] && solid && !isGap p.next then
          if empty.isEmpty then [' '] else []
        else lineBreak
      let (rest, q) := lines fold chomping indent fuel empty p
      (before ++ line ++ joint ++ rest, q)
    else
      let tail := match chomping with
        | .strip => []
        | .clip => lineBreak
        | .keep => lineBreak ++ empty
      (before ++ line ++ tail, p)

end Block

/-- A text in a block, inside the given indentation. -/
def scanBlock (indent : Int) (p : Place) : Result (Token × Place) :=
  let fold := p.next == '>'
  match Block.head p.advance with
  | .error e => .error e
  | .ok (chomping, increment, p) =>
    match p.skipIgnoredLine with
    | .error e => .error e
    | .ok p =>
      let least := max 1 (indent + 1).toNat
      let fuel := p.rest.length + 1
      let (empty, width, p) := match increment with
        | none =>
          let (empty, widest, q) := Block.leading fuel 0 p
          (empty, max least widest, q)
        | some n =>
          let (empty, q) := Block.breaks (least + n - 1) fuel p
          (empty, least + n - 1, q)
      if Block.onLine width p then
        let (t, p) := Block.lines fold chomping width (p.rest.length + 1) empty p
        .ok (.scalar (.ofText t) false, p)
      else .ok (.scalar (.ofText (if chomping = .keep then empty else [])) false, p)

namespace Plain

/-- Whether a plain text ends in front of this. -/
def ends (inFlow : Bool) : Text → Bool
  | [] => true
  | c :: rest =>
    let after := rest.headD endMark
    isBlankOrEnd c
      || (c == ':' && (isBlankOrEnd after || (inFlow && ",[]\x7b\x7d".toList.contains after)))
      || (inFlow && ",?[]\x7b\x7d".toList.contains c)

/-- The characters up to the end of a plain text or to a blank. -/
def run (inFlow : Bool) : Text → Text
  | [] => []
  | c :: rest => if ends inFlow (c :: rest) then [] else c :: run inFlow rest

/-- Spaces and line breaks behind a line break, unless a document starts or ends there. -/
def breaks : Nat → Place → Option Text × Place
  | 0, p => (some [], p)
  | fuel + 1, p =>
    if p.next == ' ' then breaks fuel p.advance
    else if isBreak p.next then
      let q := p.lineBreak.2
      if q.atDocumentMark then (none, q)
      else
        let (more, q) := breaks fuel q
        (more.map (p.lineBreak.1 ++ ·), q)
    else (some [], p)

/-- What stands between two parts of a plain text, and whether a line ended. A text that runs into
the start or end of a document has no further part. -/
def spaces (p : Place) : Text × Place × Bool :=
  let (blanks, p) := p.span (· == ' ')
  if isBreak p.next then
    let q := p.lineBreak.2
    if q.atDocumentMark then ([], q, true)
    else
      match breaks (q.rest.length + 1) q with
      | (some more, r) => (folded p.lineBreak.1 more, r, true)
      | (none, r) => ([], r, true)
  else (blanks, p, false)

/-- The parts of a plain text, with what stands before the first of them; also whether a line ended
behind the last. -/
def parts (inFlow : Bool) (indent : Int) : Nat → Text → Bool → Place → Text × Bool × Place
  | 0, _, lineEnded, p => ([], lineEnded, p)
  | fuel + 1, before, lineEnded, p =>
    let part := if p.next == '#' then [] else run inFlow p.rest
    if part.isEmpty then ([], lineEnded, p)
    else
      let (gap, q, ended) := spaces (p.skip part.length)
      if gap.isEmpty || q.next == '#' || (!inFlow && (q.column : Int) < indent) then
        (before ++ part, ended, q)
      else
        let (rest, ended, r) := parts inFlow indent fuel gap ended q
        (before ++ part ++ rest, ended, r)

end Plain

/-- A plain text inside the given indentation, and whether a line ended behind it. -/
def scanPlain (inFlow : Bool) (indent : Int) (p : Place) : Token × Bool × Place :=
  let (t, lineEnded, q) := Plain.parts inFlow (indent + 1) (p.rest.length + 1) [] false p
  (.scalar (.ofText t) true, lineEnded, q)

end CodeSurvey.Yaml
