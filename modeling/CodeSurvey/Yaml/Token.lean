import CodeSurvey.Yaml.Place

/-!
# Tokens of a settings file

The signs a file is made of. Blocks told by indentation have tokens of their own for their starts
and ends, and a token of its own stands where the reading of the file breaks off.
-/

namespace CodeSurvey.Yaml

/-- What a directive says. -/
inductive Directive where
  | version (major : Nat)
  | tagHandle (handle expansion : Text)
  | other
deriving DecidableEq, Repr

/-- A token. -/
inductive Token where
  | directive (d : Directive)
  | documentStart
  | documentEnd
  | blockSequenceStart
  | blockMappingStart
  | blockEnd
  | flowSequenceStart
  | flowSequenceEnd
  | flowMappingStart
  | flowMappingEnd
  | flowEntry
  | blockEntry
  | key
  | value
  | alias (name : Text)
  | anchor (name : Text)
  | tag (handle : Option Text) (suffix : Text)
  | scalar (value : Symbols) (isPlain : Bool)
  /-- Where the file can be read no further. -/
  | broken (flaw : Flaw)
deriving DecidableEq, Repr

/-- A character of a name. -/
def isNameChar (c : Char) : Bool :=
  c.isAlphanum || c == '-' || c == '_'

/-- The name of an anchor or an alias, behind its sign. -/
def scanName (p : Place) : Result (Text × Place) :=
  let (name, p) := p.advance.span isNameChar
  if name.isEmpty then .error .malformed
  else if isBlankOrEnd p.next || "?:,]\x7d%@\x60".toList.contains p.next then .ok (name, p)
  else .error .malformed

/-- The value of two hexadecimal digits. -/
def hexValue? (digits : Text) : Option Nat :=
  digits.foldl (fun value c => value.bind fun n =>
    if c.isDigit then some (n * 16 + (c.toNat - '0'.toNat))
    else if 'a' ≤ c && c ≤ 'f' then some (n * 16 + (c.toNat - 'a'.toNat + 10))
    else if 'A' ≤ c && c ≤ 'F' then some (n * 16 + (c.toNat - 'A'.toNat + 10))
    else none) (some 0)

/-- A character of a tag. -/
def isTagChar (c : Char) : Bool :=
  c.isAlphanum || "-;/?:@&=+$,_.!~*'()[]%".toList.contains c

/-- A tag in which bytes may be written by their numbers. -/
def unescapeTag : Text → Result (List UInt8)
  | [] => .ok []
  | '%' :: a :: b :: rest =>
    match hexValue? [a, b] with
    | some n => (unescapeTag rest).map (UInt8.ofNat n :: ·)
    | none => .error .malformed
  | c :: rest =>
    if c == '%' then .error .malformed
    else (unescapeTag rest).map (UInt8.ofNat c.toNat :: ·)

/-- The text of a tag. -/
def scanTagText (p : Place) : Result (Text × Place) :=
  let (raw, p) := p.span isTagChar
  if raw.isEmpty then .error .malformed
  else
    match unescapeTag raw with
    | .error e => .error e
    | .ok bytes =>
      match String.fromUTF8? (ByteArray.mk bytes.toArray) with
      | some s => .ok (s.toList, p)
      | none => .error .malformed

/-- The handle of a tag: an exclamation mark, or a name between two. -/
def scanTagHandle (p : Place) : Result (Text × Place) :=
  if p.next != '!' then .error .malformed
  else if p.peek 1 == ' ' then .ok (['!'], p.advance)
  else
    let (name, q) := p.advance.span isNameChar
    if q.next == '!' then .ok ('!' :: name ++ ['!'], q.advance) else .error .malformed

/-- A tag that is written in full. -/
def scanVerbatimTag (p : Place) : Result (Token × Place) :=
  match scanTagText (p.skip 2) with
  | .error e => .error e
  | .ok (suffix, p) =>
    if p.next == '>' then .ok (.tag none suffix, p.advance) else .error .malformed

/-- A tag with a handle. -/
def scanShortTag (p : Place) : Result (Token × Place) :=
  let word := (p.advance.rest).takeWhile fun c => !isSpaceOrEnd c
  let handle := if word.contains '!' then scanTagHandle p else .ok (['!'], p.advance)
  match handle with
  | .error e => .error e
  | .ok (handle, p) =>
    match scanTagText p with
    | .error e => .error e
    | .ok (suffix, p) => .ok (.tag (some handle) suffix, p)

/-- A tag. -/
def scanTag (p : Place) : Result (Token × Place) :=
  let tag :=
    if p.peek 1 == '<' then scanVerbatimTag p
    else if isBlankOrEnd (p.peek 1) then .ok (.tag none ['!'], p.advance)
    else scanShortTag p
  match tag with
  | .error e => .error e
  | .ok (token, p) => if isSpaceOrEnd p.next then .ok (token, p) else .error .malformed

/-- The value of decimal digits. -/
def scanNumber (p : Place) : Result (Nat × Place) :=
  let (digits, p) := p.span Char.isDigit
  if digits.isEmpty then .error .malformed
  else if Text.digitLimit < digits.length then misread (.tooManyDigits digits.length)
  else .ok (digits.foldl (fun n c => n * 10 + (c.toNat - '0'.toNat)) 0, p)

/-- The value of a version directive. -/
def scanVersion (p : Place) : Result (Directive × Place) :=
  match scanNumber (p.skipWhile (· == ' ')) with
  | .error e => .error e
  | .ok (major, p) =>
    if p.next != '.' then .error .malformed
    else
      match scanNumber p.advance with
      | .error e => .error e
      | .ok (_, p) => if isSpaceOrEnd p.next then .ok (.version major, p) else .error .malformed

/-- The value of a directive for tags. -/
def scanTagDirective (p : Place) : Result (Directive × Place) :=
  match scanTagHandle (p.skipWhile (· == ' ')) with
  | .error e => .error e
  | .ok (handle, p) =>
    if p.next != ' ' then .error .malformed
    else
      match scanTagText (p.skipWhile (· == ' ')) with
      | .error e => .error e
      | .ok (expansion, p) =>
        if isSpaceOrEnd p.next then .ok (.tagHandle handle expansion, p) else .error .malformed

/-- A directive. -/
def scanDirective (p : Place) : Result (Token × Place) :=
  let (name, p) := p.advance.span isNameChar
  if name.isEmpty || !isSpaceOrEnd p.next then .error .malformed
  else
    let content :=
      if name = "YAML".toList then scanVersion p
      else if name = "TAG".toList then scanTagDirective p
      else .ok (.other, p.skipWhile (!isBreak ·))
    match content with
    | .error e => .error e
    | .ok (directive, p) => p.skipIgnoredLine.map fun p => (.directive directive, p)

end CodeSurvey.Yaml
