import CodeSurvey.Language
import CodeSurvey.Text.Blank

/-!
# Blocks

The body that follows a signature. Where braces enclose blocks, the body runs from the first brace
to the one that closes it, or it is the expression behind an arrow; where indentation tells blocks,
it is the lines that are indented deeper.

* `Block.matchingBrace?`: the brace that closes the one at a place;
* `Block.braced`, `Block.indented`: the body behind a signature.
-/

namespace CodeSurvey

/-- Where a body starts and ends, and where the whole function ends, its closing mark included. -/
structure Block where
  bodyStart : Nat
  bodyEnd : Nat
  stop : Nat
deriving DecidableEq, Repr

namespace Block

/-- The first place from which on the braces of a text balance, given the balance so far. -/
def closeFrom? (depth : Int) (place : Nat) : Text → Option Nat
  | [] => none
  | c :: rest =>
    if c == '{' then closeFrom? (depth + 1) (place + 1) rest
    else if c == '}' then
      if depth - 1 == 0 then some place else closeFrom? (depth - 1) (place + 1) rest
    else closeFrom? depth (place + 1) rest

/-- The brace that closes the one at a place. -/
def matchingBrace? (t : Text) (place : Nat) : Option Nat :=
  closeFrom? 0 place (t.drop place)

/-- The first place at or after `place` that holds no blank. -/
def skipBlanks (t : Text) (place : Nat) : Nat :=
  place + ((t.drop place).takeWhile Text.isBlank).length

/-- Whether these characters stand at a place. -/
def standsAt (needle t : Text) (place : Nat) : Bool :=
  needle.isPrefixOf (t.drop place)

/-- The first opening brace at or after a place, unless a semicolon comes first: then the
declaration has no body. -/
def openBrace? (t : Text) (place : Nat) : Option Nat :=
  (Text.indexFrom? (fun c => c == '{' || c == ';') t place).filter (standsAt ['{'] t)

/-- The expression behind an arrow: up to a semicolon or the end of the line. -/
def expression (t : Text) (place : Nat) : Block :=
  let stop := (Text.indexFrom? (fun c => c == ';' || c == '\n') t place).getD t.length
  ⟨place, stop, if standsAt [';'] t stop then stop + 1 else stop⟩

/-- The body between braces. One that is never closed runs to the end of the text. -/
def enclosed (t : Text) (signatureEnd : Nat) : Block :=
  match openBrace? t signatureEnd with
  | none => ⟨signatureEnd, signatureEnd, signatureEnd⟩
  | some i =>
    match matchingBrace? t i with
    | none => ⟨i + 1, t.length, t.length⟩
    | some j => ⟨i + 1, j, j + 1⟩

/-- The body behind a signature where braces enclose blocks. -/
def braced (t : Text) (signatureStart signatureEnd : Nat) : Block :=
  let place := skipBlanks t signatureEnd
  if standsAt ['=', '>'] t place then
    let behind := skipBlanks t (place + 2)
    if standsAt ['{'] t behind then enclosed t signatureEnd else expression t behind
  else if Text.slice t (max signatureStart (signatureEnd - 2)) signatureEnd == ['=', '>']
      && !standsAt ['{'] t place then expression t place
  else enclosed t signatureEnd

/-- A line of blanks only. -/
def isBlankLine (line : Text) : Bool :=
  (Text.trim line).isEmpty

/-- The end of the last line of an indented body, given the indentation it has to exceed or, behind
its first line, to reach. Blank lines belong to it only between its lines. -/
def contentEnd? (outer : Nat) (inner : Option Nat) (last : Option Nat) (place : Nat) :
    List Text → Option Nat
  | [] => last
  | line :: rest =>
    let stop := place + line.length
    if isBlankLine line then contentEnd? outer inner last (stop + 1) rest
    else
      let width := Text.indentWidth line
      match inner with
      | none =>
        if width ≤ outer then last else contentEnd? outer (some width) (some stop) (stop + 1) rest
      | some first =>
        if width < first then last else contentEnd? outer inner (some stop) (stop + 1) rest

/-- The body behind a signature where indentation tells blocks: the rest of the signature's line, or
the lines that follow it and are indented deeper. -/
def indented (t : Text) (signatureStart signatureEnd : Nat) : Block :=
  let first := Text.lineStart t signatureStart
  let outer := Text.indentWidth (Text.slice t first (Text.lineEnd t first))
  let eol := Text.lineEnd t signatureEnd
  let rest := Text.slice t signatureEnd eol
  let inline := Text.trim rest
  if !inline.isEmpty && !standsAt ['#'] inline 0 then
    ⟨signatureEnd + (rest.length - (Text.trimLeft rest).length), eol, eol⟩
  else
    match contentEnd? outer none none (eol + 1) (Text.lines (t.drop (eol + 1))) with
    | none => ⟨signatureEnd, signatureEnd, eol⟩
    | some stop => ⟨eol + 1, stop, stop⟩

end Block

/-- The body behind a signature, told as the language tells blocks. -/
def Language.block (language : Language) : Text → Nat → Nat → Block :=
  if language.usesBraces then Block.braced else Block.indented

end CodeSurvey
