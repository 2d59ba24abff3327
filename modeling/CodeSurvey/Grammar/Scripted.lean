import CodeSurvey.Grammar.Braced

/-!
# The scripting dialects

One grammar with two extensions: declarations of types, and components with markup. In the markup
dialects the array methods that take a callback count as loops, and the logical "and" and the
choice between two values count as conditionals.
-/

namespace CodeSurvey.Grammar.Scripted

open Pattern

/-- One of the words that declare a variable, and blanks. -/
def declarator : Pattern :=
  edge ++ words ["const", "let", "var"] ++ someBlanks

/-- A function declaration. -/
def declaredFunction : Pattern :=
  opt (lit "async" ++ someBlanks) ++ lit "function" ++ edge ++ blanks ++ opt (lit "*") ++ blanks
    ++ group ⟨"name", "_a"⟩ scriptName ++ blanks ++ opt generics ++ blanks
    ++ lit "(" ++ group ⟨"params", "_a"⟩ paramText ++ lit ")"

/-- A variable bound to an arrow function with bracketed parameters. -/
def arrowFunction : Pattern :=
  declarator ++ group ⟨"name", "_b"⟩ scriptName ++ blanks
    ++ opt (lit ":" ++ plus (noneOf "=\n")) ++ lit "=" ++ blanks
    ++ opt (lit "async" ++ blanks) ++ opt (generics ++ blanks)
    ++ lit "(" ++ group ⟨"params", "_b"⟩ paramText ++ lit ")" ++ blanks
    ++ opt (lit ":" ++ plusFew (noneOf "=;\x7b\x7d\n")) ++ blanks ++ lit "=>"

/-- A variable bound to an arrow function with one bare parameter. -/
def bareArrowFunction : Pattern :=
  declarator ++ group ⟨"name", "_c"⟩ scriptName ++ blanks ++ lit "=" ++ blanks
    ++ opt (lit "async" ++ someBlanks) ++ group ⟨"params", "_c"⟩ scriptName ++ blanks ++ lit "=>"

/-- A name assigned a function expression. -/
def assignedFunction : Pattern :=
  group ⟨"name", "_d"⟩ scriptName ++ blanks ++ lit "=" ++ blanks
    ++ opt (lit "async" ++ someBlanks) ++ lit "function" ++ edge ++ blanks ++ opt (lit "*")
    ++ blanks ++ opt scriptName ++ blanks
    ++ lit "(" ++ group ⟨"params", "_d"⟩ paramText ++ lit ")"

/-- A function in any of its forms. -/
def function : Pattern :=
  declaredFunction <|> arrowFunction <|> bareArrowFunction <|> assignedFunction

/-- A class with the class it extends. -/
def classDecl : Pattern :=
  edge ++ lit "class" ++ someBlanks ++ role "name" scriptName ++ opt (blanks ++ generics)
    ++ opt (someBlanks ++ lit "extends" ++ someBlanks
      ++ role "base" (plus (one fun c => Text.isWord c || c == '$' || c == '.')))

/-- A declared variable. -/
def variableDecl : Pattern :=
  edge ++ role "kind" (words ["var", "let", "const"]) ++ someBlanks ++ role "name" scriptName
    ++ edge

/-- An interface with what it extends. -/
def interface : Pattern :=
  edge ++ lit "interface" ++ someBlanks ++ role "name" scriptName ++ blanks ++ opt generics
    ++ opt (someBlanks ++ lit "extends" ++ someBlanks ++ role "base" (plusFew (noneOf "\x7b")))
    ++ blanks ++ lit "\x7b"

/-- A named type. -/
def typeAlias : Pattern :=
  edge ++ lit "type" ++ someBlanks ++ role "name" scriptName ++ blanks ++ opt generics ++ blanks
    ++ lit "=" ++ notAhead (oneOf "=>")

/-- The annotation of a component's type. -/
def componentAnnotation : Pattern :=
  opt (lit ":" ++ blanks ++ opt (lit "React.") ++ words ["FC", "FunctionComponent"]
    ++ opt (lit "<" ++ star (noneOf ">") ++ lit ">") ++ blanks)

/-- The parameters of a component written as an arrow function: nothing, a destructured object or
one name, with an annotation. -/
def componentParams : Pattern :=
  lit "(" ++ opt ((blanks ++ lit "\x7b" ++ star (noneOf "\x7d") ++ lit "\x7d")
      <|> (blanks ++ someWordChars))
    ++ opt (blanks ++ lit ":" ++ blanks ++ plus (noneOf ")")) ++ blanks ++ lit ")" ++ blanks
    ++ lit "=>"

/-- A component: a function whose name starts with a capital. -/
def component : Pattern :=
  (edge ++ lit "function" ++ someBlanks ++ group ⟨"name", "_a"⟩ capitalName ++ blanks ++ lit "(")
    <|> (edge ++ words ["const", "let"] ++ someBlanks ++ group ⟨"name", "_b"⟩ capitalName ++ blanks
      ++ componentAnnotation ++ lit "=" ++ blanks ++ opt (lit "React.")
      ++ opt (lit "memo(" ++ blanks)
      ++ opt (opt (lit "React.") ++ lit "forwardRef(" ++ blanks)
      ++ ((lit "function" ++ edge) <|> componentParams))

/-- A call of a hook, not the declaration of one. -/
def hook : Pattern :=
  notBehind ("function".toList.map (fun x c => c == x) ++ [Text.isBlank]) ++ edge
    ++ role "name" (lit "use" ++ one Char.isUpper ++ wordChars) ++ blanks
    ++ opt (lit "<" ++ star (noneOf ">") ++ lit ">") ++ blanks ++ lit "("

/-- The opening of a markup element, not a comparison or type arguments. -/
def element : Pattern :=
  notBehind [fun c => Text.isWord c || "$.])".toList.contains c] ++ lit "<"
    ++ role "name" (one Char.isUpper ++ star (one isDottedRest))

/-- A destructured parameter object. -/
def props : Pattern :=
  lit "(" ++ blanks ++ lit "\x7b" ++ role "props" (star (noneOf "\x7b\x7d()")) ++ lit "\x7d"
    ++ blanks ++ opt (lit ":" ++ star (noneOf ")")) ++ lit ")"

/-- The array methods that run a callback over every element. -/
def callbackLoop : Pattern :=
  lit "." ++ group ⟨"kind", "_method"⟩ (words ["map", "forEach", "filter"]) ++ blanks ++ lit "("

/-- Conditionals of the markup dialects. -/
def markupConditional : Pattern :=
  Braced.conditional <|> group ⟨"kind", "_logical"⟩ (lit "&&")
    <|> group ⟨"kind", "_ternary"⟩ Braced.ternary

/-- The type extension. -/
def types : TypeGrammar where
  interface := interface
  typeAlias := typeAlias

/-- The markup extension. -/
def markup : MarkupGrammar where
  component := component
  hook := hook
  element := element
  props := props

/-- The plain dialect. -/
def plain : Grammar where
  function := function
  classDecl := classDecl
  loop := Braced.loop
  conditional := Braced.conditional
  variableDecl := variableDecl
  comment := Braced.comment
  docComment := Braced.docComment
  decisions := Braced.decisionsWith Braced.ternary
  types := none
  markup := none

/-- The dialect with types. -/
def typed : Grammar :=
  { plain with types := some types }

/-- The dialect with markup. -/
def marked : Grammar :=
  { plain with
    loop := Braced.loop <|> callbackLoop
    conditional := markupConditional
    markup := some markup }

/-- The dialect with types and markup. -/
def typedMarked : Grammar :=
  { marked with types := some types }

end CodeSurvey.Grammar.Scripted
