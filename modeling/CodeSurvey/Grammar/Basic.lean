import CodeSurvey.Language
import CodeSurvey.Pattern.Match

/-!
# Grammars

What the analyses know about a language: a pattern for each kind of construct. A pattern finds a
construct by its words and marks alone; words inside strings and comments count like any others.
-/

namespace CodeSurvey

/-- The terms that complexity is counted from. -/
structure DecisionTerms where
  conditional : Pattern
  loop : Pattern
  handler : Pattern
  logical : Pattern
  switchCase : Option Pattern
  ternary : Option Pattern
  /-- The words that break the flow of control when a line starts with them. -/
  controlFlow : List String
  conjunction : Pattern
  disjunction : Pattern

/-- Declarations of types. -/
structure TypeGrammar where
  interface : Pattern
  typeAlias : Pattern

/-- Components and the markup they are made of. -/
structure MarkupGrammar where
  component : Pattern
  hook : Pattern
  element : Pattern
  props : Pattern

/-- The patterns of one language. -/
structure Grammar where
  function : Pattern
  classDecl : Pattern
  loop : Pattern
  conditional : Pattern
  variableDecl : Pattern
  comment : Pattern
  docComment : Pattern
  decisions : DecisionTerms
  types : Option TypeGrammar
  markup : Option MarkupGrammar

/-- A pattern of the grammar by name, the decision terms behind a point. -/
def Grammar.named? (g : Grammar) : String → Option Pattern
  | "function" => some g.function
  | "class" => some g.classDecl
  | "loop" => some g.loop
  | "conditional" => some g.conditional
  | "variable" => some g.variableDecl
  | "comment" => some g.comment
  | "doc_comment" => some g.docComment
  | "interface" => g.types.map TypeGrammar.interface
  | "type_alias" => g.types.map TypeGrammar.typeAlias
  | "component" => g.markup.map MarkupGrammar.component
  | "hooks" => g.markup.map MarkupGrammar.hook
  | "jsx" => g.markup.map MarkupGrammar.element
  | "props" => g.markup.map MarkupGrammar.props
  | "decision.conditional" => some g.decisions.conditional
  | "decision.loop" => some g.decisions.loop
  | "decision.catch" => some g.decisions.handler
  | "decision.logical" => some g.decisions.logical
  | "decision.switch_case" => g.decisions.switchCase
  | "decision.ternary" => g.decisions.ternary
  | _ => none

/-- Words that are never the name of a function, though a signature pattern may take them for
one. -/
def reservedNames : List Text :=
  ["if", "for", "foreach", "while", "switch", "catch", "return", "new", "else", "do", "try",
    "using", "lock", "fixed", "typeof", "sizeof", "nameof", "function"].map String.toList

/-- Words that are never the type of a declaration, though they may stand where one is expected. -/
def reservedTypes : List Text :=
  ["return", "new", "else", "throw", "case", "package", "import", "using", "goto", "yield",
    "await", "namespace", "break", "continue", "default"].map String.toList

/-- The name and the parameter text of a function signature. -/
structure Signature where
  name : Text
  params : Text

/-- The signature that a reading of a function pattern stands for; none if what it took for the name
or the type is a reserved word. -/
def Match.signature? (m : Match) : Option Signature :=
  match m.group? "name" with
  | none => none
  | some name =>
    if reservedNames.contains name then none
    else if (m.group? "rtype").any reservedTypes.contains then none
    else some ⟨name, (m.group? "params").getD []⟩

namespace Pattern

/-- A letter or the underscore. -/
def isNameStart (c : Char) : Bool :=
  c.isAlpha || c == '_'

/-- A letter, the underscore or the dollar sign. -/
def isScriptNameStart (c : Char) : Bool :=
  isNameStart c || c == '$'

/-- A word character or the dollar sign. -/
def isScriptNameRest (c : Char) : Bool :=
  Text.isWord c || c == '$'

/-- A word character or a point. -/
def isDottedRest (c : Char) : Bool :=
  Text.isWord c || c == '.'

/-- A name: a letter or underscore, then word characters. -/
def name : Pattern :=
  one isNameStart ++ wordChars

/-- A name in which the dollar sign counts as a letter. -/
def scriptName : Pattern :=
  one isScriptNameStart ++ star (one isScriptNameRest)

/-- A name that starts with a capital. -/
def capitalName : Pattern :=
  one Char.isUpper ++ wordChars

/-- A text without round brackets. -/
def unbracketed : Pattern :=
  star (noneOf "()")

/-- A text in which round brackets are balanced and not nested. -/
def paramText : Pattern :=
  star (noneOf "()" <|> (lit "(" ++ unbracketed ++ lit ")"))

/-- A bracketed header with at most one level of brackets inside. -/
def header : Pattern :=
  lit "(" ++ paramText ++ lit ")"

/-- Type arguments, nested at most twice. -/
def generics : Pattern :=
  let plain := star (noneOf "<>()")
  lit "<" ++ plain ++ star (lit "<" ++ plain ++ lit ">" ++ plain) ++ lit ">"

/-- A type: a dotted name, type arguments, array brackets, a mark for "or null". -/
def typeName : Pattern :=
  one isNameStart ++ star (one isDottedRest) ++ opt generics ++ star (lit "[]") ++ opt (lit "?")

/-- A whole word. -/
def keyword (s : String) : Pattern :=
  edge ++ lit s ++ edge

/-- One of several whole words. -/
def keywords (l : List String) : Pattern :=
  edge ++ words l ++ edge

end Pattern

end CodeSurvey
