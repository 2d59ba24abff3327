import CodeSurvey.Grammar
import CodeSurvey.Source.Block
import CodeSurvey.Source.Param

/-!
# Routines

The functions declared in a text, with their parameters and the spans of their bodies.
-/

namespace CodeSurvey

/-- A function found in a text. All places count from the start of the text. -/
structure Routine where
  name : Text
  params : List Param
  /-- Where the signature starts. -/
  offset : Nat
  /-- The place after the signature. -/
  signatureEnd : Nat
  block : Block
  startLine : Nat
  endLine : Nat
deriving DecidableEq, Repr

namespace Routine

/-- The routine that a reading of a function pattern stands for. -/
def ofMatch? (language : Language) (t : Text) (m : Match) : Option Routine :=
  m.signature?.map fun s =>
    let block := language.block t m.first m.last
    { name := s.name
      params := Param.parseAll language s.params
      offset := m.first
      signatureEnd := m.last
      block := block
      startLine := Text.lineNumber t m.first
      endLine := Text.lineNumber t (max m.first (block.stop - 1)) }

/-- The routines of a text, in order. -/
def scan (language : Language) (t : Text) : List Routine :=
  (language.grammar.function.findAll t).filterMap (ofMatch? language t)

/-- The whole text of a routine, from its signature to the end of its body. -/
def text (r : Routine) (source : Text) : Text :=
  Text.slice source r.offset r.block.stop

/-- The text of its body. -/
def body (r : Routine) (source : Text) : Text :=
  Text.slice source r.block.bodyStart r.block.bodyEnd

/-- The number of lines it touches. -/
def lineCount (r : Routine) : Nat :=
  r.endLine + 1 - r.startLine

/-- The first and the last line as a document. -/
def lineRange (r : Routine) : Json :=
  .arr [.nat r.startLine, .nat r.endLine]

/-- A routine as a document. -/
def toJson (r : Routine) : Json :=
  .obj [("name", .text r.name), ("params", .arr (r.params.map Param.toJson)),
    ("lineRange", r.lineRange)]

end Routine

end CodeSurvey
