import CodeSurvey.Error
import CodeSurvey.Grammar
import CodeSurvey.Json.Basic
import CodeSurvey.Text.Quoted

/-!
# Tracing a variable

Every place where a name stands as a whole word, with its line and column, and whether the place
defines it.
-/

namespace CodeSurvey

/-- One place where a name stands. Lines and columns count from one. -/
structure Occurrence where
  line : Nat
  column : Nat
  offset : Nat
  lineText : Text
  isDefinition : Bool
deriving DecidableEq, Repr

namespace Occurrence

/-- An occurrence as a document. -/
def toJson (o : Occurrence) : Json :=
  .obj [("line", .nat o.line), ("column", .nat o.column), ("text", .text o.lineText),
    ("isDefinition", .bool o.isDefinition)]

end Occurrence

namespace Trace

open Pattern

/-- Whether a text is a name that can be traced. -/
def isName (name : Text) : Bool :=
  scriptName.coversAll name

/-- A word for a type or a declaration, in front of a name. -/
def typedLead : Pattern :=
  edge ++ words ["int", "long", "short", "byte", "char", "float", "double", "decimal", "bool",
      "boolean", "String", "string", "var", "object", "Object", "final", "const", "readonly",
      "class", "struct", "interface"]
    ++ someBlanks ++ textEnd

/-- A character of a member's type. -/
def isMemberTypeChar (c : Char) : Bool :=
  Text.isWord c || "<>[],?".toList.contains c

/-- An access modifier and a type, in front of a name. -/
def memberLead : Pattern :=
  edge ++ words ["public", "private", "protected", "internal"] ++ someBlanks
    ++ opt (lit "static" ++ someBlanks) ++ plus (one isMemberTypeChar) ++ someBlanks ++ textEnd

/-- A word that may be a type, in front of a name. -/
def typeTokenLead : Pattern :=
  notBehind [isDottedRest]
    ++ role "type" (name ++ opt (lit "<" ++ star (noneOf "<>") ++ lit ">") ++ star (lit "[]")
      ++ opt (lit "?"))
    ++ someBlanks ++ textEnd

/-- Words that stand before a name without being its type. -/
def nonTypes : List Text :=
  ["return", "new", "throw", "else", "case", "await", "yield", "in", "is", "as", "out",
    "ref"].map String.toList

/-- What follows the name in a declaration. -/
def declarationTail : Pattern :=
  blanks ++ ((lit "=" ++ notAhead (oneOf "=>")) <|> oneOf ";,)")

/-- A declaring word of the scripting languages, in front of a name. -/
def scriptLead : Pattern :=
  edge ++ words ["var", "let", "const"] ++ someBlanks ++ textEnd

/-- An assignment, with or without an annotation, behind a name. -/
def assignmentTail : Pattern :=
  blanks ++ opt (lit ":" ++ plus (noneOf "=\n")) ++ lit "=" ++ notAhead (lit "=")

/-- Other targets of an assignment, in front of a name. -/
def targetLead : Pattern :=
  star (one fun c => Text.isBlank c || Text.isWord c || c == ',' || c == '*')

/-- Whether a name is defined where it stands assigned, among other targets at most. -/
def definedByAssignment (lead tail : Text) : Bool :=
  assignmentTail.opens tail && targetLead.coversAll lead

/-- Whether a name is defined where it stands behind a type. -/
def definedByType (lead tail : Text) : Bool :=
  typedLead.foundIn lead || memberLead.foundIn lead
    || match typeTokenLead.search? lead with
      | none => false
      | some m => !nonTypes.contains ((m.group? "type").getD []) && declarationTail.opens tail

/-- Whether a name is defined where it stands behind a declaring word. -/
def definedByKeyword (lead tail : Text) : Bool :=
  scriptLead.foundIn lead
    || ("function".toList.isSuffixOf (Text.trimRight lead) && ['('].isPrefixOf (Text.trimLeft tail))

/-- Whether a name is defined where it stands, told by the rest of its line. -/
def isDefinition (language : Language) (lead tail : Text) : Bool :=
  if language = .python then definedByAssignment lead tail
  else if language.typeFirst then definedByType lead tail
  else definedByKeyword lead tail

/-- A name as a whole word. Outside the scripting languages, calls are passed over. -/
def wholeName (language : Language) (name : Text) : Pattern :=
  let bare := notBehind [isScriptNameRest] ++ text name ++ notAhead (one isScriptNameRest)
  if language.isScript then bare else bare ++ notAhead (blanks ++ lit "(")

/-- Whether the start of a line opens a comment. -/
def opensComment (lead : Text) : Bool :=
  Text.occursIn ['/', '/'] lead || Text.occursIn ['/', '*'] lead

/-- The occurrence at a place. Where types come first, places behind a comment mark are passed
over. -/
def occurrenceAt? (language : Language) (t name : Text) (place : Nat) : Option Occurrence :=
  let start := Text.lineStart t place
  let line := Text.slice t start (Text.lineEnd t place)
  let column := place - start
  let lead := line.take column
  if language.typeFirst && opensComment lead then none
  else some
    { line := Text.lineNumber t place
      column := column + 1
      offset := place
      lineText := line
      isDefinition := isDefinition language lead (line.drop (column + name.length)) }

/-- The occurrences of a name in a text, in order. -/
def occurrences (language : Language) (t name : Text) : List Occurrence :=
  ((wholeName language name).findAll t).filterMap fun m => occurrenceAt? language t name m.first

/-- The occurrences of a name, or the error for what is no name. -/
def ofText (language : Language) (t name : Text) : Except SurveyError (List Occurrence) :=
  if isName name then .ok (occurrences language t name)
  else .error (.invalidIdentifier (Text.quoted name))

/-- The number of definitions among some occurrences. -/
def definitions (l : List Occurrence) : Nat :=
  l.countP Occurrence.isDefinition

end Trace

end CodeSurvey
