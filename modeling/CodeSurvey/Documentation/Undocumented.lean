import CodeSurvey.Documentation.Template

/-!
# Undocumented functions

A function counts as documented if one of the three lines above its signature is a comment or, where
docstrings are the custom, if its body opens with one.
-/

namespace CodeSurvey

/-- A function without a doc comment, and a template for one. -/
structure Undocumented where
  name : Text
  line : Nat
  text : Text
  isComponent : Bool
  suggestion : Text
deriving DecidableEq, Repr

namespace Undocumented

/-- Whether a text starts with one of these. -/
def startsWithAny (openings : List String) (t : Text) : Bool :=
  openings.any fun s => s.toList.isPrefixOf t

/-- Whether a line is a comment or part of one. A line that starts with an attribute is none. -/
def isCommentLine (language : Language) (line : Text) : Bool :=
  let stripped := Text.trim line
  match language with
  | .python => startsWithAny ["#", "\"\"\"", "'''"] stripped
  | _ => startsWithAny ["//", "/*", "*"] stripped

/-- The opening of a docstring. -/
def docstringStart : Pattern :=
  Pattern.opt (Pattern.oneOf "rRbBuU") ++ Pattern.words ["\"\"\"", "'''"]

/-- Whether a body opens with a docstring. -/
def hasDocstring (body : Text) : Bool :=
  docstringStart.opens (Text.trimLeft body)

/-- Whether a routine of a text with these lines is documented. -/
def isDocumented (language : Language) (t : Text) (lines : List Text) (r : Routine) : Bool :=
  let index := r.startLine - 1
  ((lines.take index).drop (index - 3)).any (isCommentLine language)
    || (language == .python && hasDocstring (r.body t))

/-- The undocumented functions of a text, in order. -/
def ofText (language : Language) (t : Text) : List Undocumented :=
  let lines := Text.lines t
  ((Routine.scan language t).filter fun r => !isDocumented language t lines r).map fun r =>
    { name := r.name
      line := r.startLine
      text := Text.trim ((lines[r.startLine - 1]?).getD [])
      isComponent := DocTemplate.isComponent language r
      suggestion := DocTemplate.ofRoutine language r }

/-- An undocumented function as a document. -/
def toJson (u : Undocumented) : Json :=
  .obj [("name", .text u.name), ("line", .nat u.line), ("text", .text u.text),
    ("isComponent", .bool u.isComponent), ("suggestion", .text u.suggestion)]

end Undocumented

end CodeSurvey
