import CodeSurvey.Yaml.Scalar

/-!
# From text to tokens

The lexer keeps the indentation of the open blocks and, for each level of brackets, the place where
a key may have started: only the colon behind it tells that it was one, and its token is put in
front of it then. Such a key stays on one line and is at most 1024 characters long.
-/

namespace CodeSurvey.Yaml

/-- A place where a key may have started. -/
structure KeyStart where
  tokenCount : Nat
  /-- Nothing but a key can stand there. -/
  required : Bool
  index : Nat
  line : Nat
  column : Nat
deriving DecidableEq, Repr

/-- The lexer between two tokens. -/
structure Lexer where
  place : Place
  tokens : List Token
  /-- The key starts of the open brackets, innermost first, and of the block around them. -/
  flow : List (Option KeyStart)
  block : Option KeyStart
  indent : Int
  outerIndents : List Int
  keyAllowed : Bool

namespace Lexer

/-- The lexer at the start of a text. -/
def start (t : Text) : Lexer :=
  let p := Place.start t
  ⟨if isByteOrderMark p.next then p.advance else p, [], [], none, -1, [], true⟩

/-- Whether a bracket is open. -/
def inFlow (s : Lexer) : Bool :=
  !s.flow.isEmpty

/-- The lexer with one more token, at a new place. -/
def emit (s : Lexer) (token : Token) (place : Place) : Lexer :=
  { s with tokens := s.tokens ++ [token], place := place }

/-- The lexer with one more token of some characters. -/
def emitSign (s : Lexer) (token : Token) (length : Nat) : Lexer :=
  s.emit token (s.place.skip length)

/-- The place where a key of the current level may have started. -/
def keyStart (s : Lexer) : Option KeyStart :=
  match s.flow with
  | [] => s.block
  | k :: _ => k

/-- The lexer with another place where a key of the current level may have started. -/
def withKeyStart (s : Lexer) (k : Option KeyStart) : Lexer :=
  match s.flow with
  | [] => { s with block := k }
  | _ :: outer => { s with flow := k :: outer }

/-- The lexer without a key start on the current level; a required one may not be given up. -/
def dropKeyStart (s : Lexer) : Result Lexer :=
  if s.keyStart.any KeyStart.required then .error .malformed else .ok (s.withKeyStart none)

/-- Whether a key can no longer be the one that started there. -/
def isStale (s : Lexer) (k : KeyStart) : Bool :=
  k.line != s.place.line || 1024 < s.place.index - k.index

/-- A key start that is not stale. -/
def fresh (s : Lexer) (k : Option KeyStart) : Option KeyStart :=
  k.filter fun k => !s.isStale k

/-- The lexer without stale key starts; a required one may not become stale. -/
def dropStale (s : Lexer) : Result Lexer :=
  if (s.block :: s.flow).any fun k => k.any fun k => k.required && s.isStale k then
    .error .malformed
  else .ok { s with block := s.fresh s.block, flow := s.flow.map s.fresh }

/-- The lexer with the current place noted as the start of a key, if one may start there. -/
def noteKeyStart (s : Lexer) : Result Lexer :=
  if s.keyAllowed then
    s.dropKeyStart.map fun s => s.withKeyStart (some
      { tokenCount := s.tokens.length
        required := !s.inFlow && s.indent == s.place.column
        index := s.place.index
        line := s.place.line
        column := s.place.column })
  else .ok s

/-- The tokens that end the blocks indented further than a column, and the blocks that stay. -/
def unwound (column : Int) : Int → List Int → List Token × Int × List Int
  | indent, [] => ([], indent, [])
  | indent, outer :: rest =>
    if column < indent then
      let (tokens, indent, rest) := unwound column outer rest
      (.blockEnd :: tokens, indent, rest)
    else ([], indent, outer :: rest)

/-- The lexer with the blocks ended that are indented further than a column. Inside brackets
indentation does not count. -/
def unwind (s : Lexer) (column : Int) : Lexer :=
  if s.inFlow then s
  else
    let (tokens, indent, outer) := unwound column s.indent s.outerIndents
    { s with tokens := s.tokens ++ tokens, indent := indent, outerIndents := outer }

/-- The lexer with a block opened at a column, if that is further in; the token of its start goes to
the given place among the tokens. -/
def openBlock (s : Lexer) (column : Nat) (token : Token) (tokenCount : Nat) : Lexer :=
  if s.indent < column then
    { s with
      indent := column
      outerIndents := s.indent :: s.outerIndents
      tokens := s.tokens.take tokenCount ++ token :: s.tokens.drop tokenCount }
  else s

/-- Skips spaces, line breaks and comments. A line break outside brackets allows a key again. -/
def skipBlanks : Nat → Lexer → Lexer
  | 0, s => s
  | fuel + 1, s =>
    let p := s.place.skipWhile (· == ' ')
    let p := if p.next == '#' then p.skipWhile (!isBreak ·) else p
    if isBreak p.next then
      skipBlanks fuel
        { s with place := p.lineBreak.2, keyAllowed := s.keyAllowed || !s.inFlow }
    else { s with place := p }

/-- The end of the text. -/
def finish (s : Lexer) : Result (List Token) :=
  let s := s.unwind (-1)
  s.dropKeyStart.map Lexer.tokens

/-- The start or end of a document, or a directive, which ends all blocks. -/
def documentSign (s : Lexer) : Result Lexer :=
  ((s.unwind (-1)).dropKeyStart).map fun s => { s with keyAllowed := false }

/-- An opening bracket, which may start a key and allows one behind it. -/
def openFlow (s : Lexer) (token : Token) : Result Lexer :=
  s.noteKeyStart.map fun s =>
    { s.emitSign token 1 with flow := none :: s.flow, keyAllowed := true }

/-- A closing bracket. -/
def closeFlow (s : Lexer) (token : Token) : Result Lexer :=
  if !s.inFlow then .error .malformed
  else s.dropKeyStart.map fun s =>
    { s.emitSign token 1 with flow := s.flow.tail, keyAllowed := false }

/-- A comma inside brackets. -/
def flowEntry (s : Lexer) : Result Lexer :=
  s.dropKeyStart.map fun s => { s.emitSign .flowEntry 1 with keyAllowed := true }

/-- The dash in front of an item. -/
def blockEntry (s : Lexer) : Result Lexer :=
  if !s.inFlow && !s.keyAllowed then .error .malformed
  else
    let s := if s.inFlow then s
      else s.openBlock s.place.column .blockSequenceStart s.tokens.length
    s.dropKeyStart.map fun s => { s.emitSign .blockEntry 1 with keyAllowed := true }

/-- The question mark in front of a key. -/
def explicitKey (s : Lexer) : Result Lexer :=
  if !s.inFlow && !s.keyAllowed then .error .malformed
  else
    let s := if s.inFlow then s
      else s.openBlock s.place.column .blockMappingStart s.tokens.length
    s.dropKeyStart.map fun s => { s.emitSign .key 1 with keyAllowed := !s.inFlow }

/-- The colon in front of a value: behind a key that has started, or on its own. -/
def valueSign (s : Lexer) : Result Lexer :=
  match s.keyStart with
  | some k =>
    let s := s.withKeyStart none
    let s := { s with
      tokens := s.tokens.take k.tokenCount ++ Token.key :: s.tokens.drop k.tokenCount
      keyAllowed := false }
    let s := if s.inFlow then s else s.openBlock k.column .blockMappingStart k.tokenCount
    .ok (s.emitSign .value 1)
  | none =>
    if !s.inFlow && !s.keyAllowed then .error .malformed
    else
      let s := if s.inFlow then s
        else s.openBlock s.place.column .blockMappingStart s.tokens.length
      s.dropKeyStart.map fun s => { s.emitSign .value 1 with keyAllowed := !s.inFlow }

/-- A token that may start a key and allows none behind it. -/
def keyLike (s : Lexer) (scan : Place → Result (Token × Place)) : Result Lexer :=
  match s.noteKeyStart with
  | .error e => .error e
  | .ok s => (scan s.place).map fun r => { s.emit r.1 r.2 with keyAllowed := false }

/-- A plain text, behind which a key is allowed if a line ended. -/
def plainText (s : Lexer) : Result Lexer :=
  s.noteKeyStart.map fun s =>
    let (token, lineEnded, p) := scanPlain s.inFlow s.indent s.place
    { s.emit token p with keyAllowed := lineEnded }

/-- A text in a block. -/
def blockText (s : Lexer) : Result Lexer :=
  match s.dropKeyStart with
  | .error e => .error e
  | .ok s => (scanBlock s.indent s.place).map fun r => { s.emit r.1 r.2 with keyAllowed := true }

/-- Whether a plain text can start here. -/
def plainStarts (s : Lexer) : Bool :=
  let c := s.place.next
  (!isBlankOrEnd c && !"-?:,[]\x7b\x7d#&*!|>'\"%@\x60".toList.contains c)
    || (!isBlankOrEnd (s.place.peek 1)
      && (c == '-' || (!s.inFlow && (c == '?' || c == ':'))))

/-- Whether a sign stands here, which outside brackets needs a blank behind it. -/
def signStands (s : Lexer) : Bool :=
  s.inFlow || isBlankOrEnd (s.place.peek 1)

/-- The lexer behind the next token, which is at hand. -/
def token (s : Lexer) : Result Lexer :=
  let p := s.place
  let c := p.next
  let atStart := p.column == 0
  if c == '%' && atStart then
    match s.documentSign with
    | .error e => .error e
    | .ok s => (scanDirective s.place).map fun r => s.emit r.1 r.2
  else if atStart && p.hasMark '-' then s.documentSign.map fun s => s.emitSign .documentStart 3
  else if atStart && p.hasMark '.' then s.documentSign.map fun s => s.emitSign .documentEnd 3
  else if c == '[' then s.openFlow .flowSequenceStart
  else if c == '{' then s.openFlow .flowMappingStart
  else if c == ']' then s.closeFlow .flowSequenceEnd
  else if c == '}' then s.closeFlow .flowMappingEnd
  else if c == ',' then s.flowEntry
  else if c == '-' && isBlankOrEnd (p.peek 1) then s.blockEntry
  else if c == '?' && s.signStands then s.explicitKey
  else if c == ':' && s.signStands then s.valueSign
  else if c == '*' then s.keyLike fun p => (scanName p).map fun r => (.alias r.1, r.2)
  else if c == '&' then s.keyLike fun p => (scanName p).map fun r => (.anchor r.1, r.2)
  else if c == '!' then s.keyLike scanTag
  else if (c == '|' || c == '>') && !s.inFlow then s.blockText
  else if c == '\'' || c == '"' then s.keyLike scanQuoted
  else if s.plainStarts then s.plainText
  else .error .malformed

/-- The tokens that are certain: those in front of every place where a key may have started. -/
def certain (s : Lexer) : List Token :=
  let starts := (s.block :: s.flow).filterMap fun k => (s.fresh k).map KeyStart.tokenCount
  s.tokens.take (starts.foldl min s.tokens.length)

/-- The lexer behind the next token, or all tokens at the end of the text. -/
def step (s : Lexer) : Result (List Token ⊕ Lexer) :=
  match (skipBlanks (s.place.rest.length + 1) s).dropStale with
  | .error e => .error e
  | .ok s =>
    let s := s.unwind s.place.column
    if s.place.rest.isEmpty then s.finish.map .inl else s.token.map .inr

/-- The tokens of the text, in at most so many steps. Where it can be read no further, the tokens
that are certain by then are followed by one that says so. -/
def run : Nat → Lexer → List Token
  | 0, _ => [.broken .malformed]
  | fuel + 1, s =>
    match s.step with
    | .error e => s.certain ++ [.broken e]
    | .ok (.inl tokens) => tokens
    | .ok (.inr s) => run fuel s

end Lexer

/-- The number of characters that are read at a time; at first it is twice as many. -/
def portion : Nat := 4096

/-- The part of a text in front of the portion in which a character is not allowed. -/
def readable (t : Text) : Text :=
  match t.findIdx? fun c => !isAllowed c with
  | none => t
  | some i => if i < 2 * portion then [] else t.take (i / portion * portion)

/-- The tokens of a text. They break off where it is not readable. -/
def tokens (t : Text) : List Token :=
  let part := readable t
  let read := (Lexer.start part).run (part.length + 2)
  if part.length = t.length then read else read ++ [.broken .malformed]

end CodeSurvey.Yaml
