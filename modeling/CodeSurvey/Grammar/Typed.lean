import CodeSurvey.Grammar.Braced

/-!
# The languages that name types first

Two grammars in which a declaration is a type followed by a name, with modifiers in front.
-/

namespace CodeSurvey.Grammar.Typed

open Pattern

/-- Any of the modifiers, each followed by spaces or tabs. -/
def modifiers (l : List String) : Pattern :=
  star (edge ++ words l ++ someGap)

/-- A method of the first language, up to the brace that opens its body. -/
def javaFunction : Pattern :=
  modifiers ["public", "private", "protected", "static", "final", "abstract", "synchronized",
      "native", "default"]
    ++ group ⟨"rtype", "_a"⟩ typeName ++ someGap ++ group ⟨"name", "_a"⟩ name ++ blanks
    ++ lit "(" ++ group ⟨"params", "_a"⟩ paramText ++ lit ")"
    ++ opt (blanks ++ lit "throws" ++ someBlanks
      ++ plusFew (one fun c => isDottedRest c || c == ',' || Text.isBlank c))
    ++ ahead (blanks ++ lit "\x7b")

/-- A type declaration of the first language, up to its body or its components. -/
def javaClass : Pattern :=
  edge ++ role "decl" (words ["class", "interface", "enum", "record"]) ++ someBlanks
    ++ role "name" name ++ blanks ++ opt generics
    ++ opt (someBlanks ++ lit "extends" ++ someBlanks
      ++ role "base" (plus (one isDottedRest) ++ opt generics))
    ++ opt (someBlanks ++ lit "implements" ++ someBlanks
      ++ role "interfaces" (plusFew (noneOf "\x7b")))
    ++ ahead (blanks ++ oneOf "\x7b(")

/-- A variable of the first language, up to its value or the end of its statement. -/
def javaVariable : Pattern :=
  modifiers ["final", "static", "private", "protected", "public"]
    ++ edge ++ role "kind" typeName ++ someGap ++ role "name" name ++ gap
    ++ ((lit "=" ++ notAhead (lit "=")) <|> lit ";")

/-- A method of the second language, up to the brace or the arrow that opens its body. -/
def csharpFunction : Pattern :=
  modifiers ["public", "private", "protected", "internal", "static", "virtual", "override",
      "abstract", "sealed", "async", "extern", "unsafe", "partial", "new"]
    ++ group ⟨"rtype", "_a"⟩ typeName ++ someGap ++ group ⟨"name", "_a"⟩ name ++ blanks
    ++ opt generics ++ blanks
    ++ lit "(" ++ group ⟨"params", "_a"⟩ paramText ++ lit ")"
    ++ opt (blanks ++ lit "where" ++ someBlanks ++ plusFew (noneOf "\x7b="))
    ++ ahead (blanks ++ (lit "\x7b" <|> lit "=>"))

/-- A type declaration of the second language, up to its body or its constraints. -/
def csharpClass : Pattern :=
  edge ++ role "decl" (words ["class", "interface", "struct", "record", "enum"]) ++ someBlanks
    ++ role "name" name ++ blanks ++ opt generics
    ++ opt (blanks ++ lit ":" ++ blanks ++ role "base" (plusFew (noneOf "\x7b")))
    ++ ahead (blanks ++ (lit "\x7b" <|> (lit "where" ++ edge)))

/-- A variable of the second language, up to its value or the end of its statement. -/
def csharpVariable : Pattern :=
  modifiers ["readonly", "const", "static", "private", "protected", "public", "internal"]
    ++ edge ++ role "kind" typeName ++ someGap ++ role "name" name ++ gap
    ++ ((lit "=" ++ notAhead (oneOf "=>")) <|> lit ";")

/-- A choice between two values where a question mark may also end a type: blanks stand on both
sides. -/
def spacedTernary : Pattern :=
  behind [Text.isBlank] ++ lit "?" ++ ahead (one Text.isBlank)

/-- The first language. -/
def java : Grammar where
  function := javaFunction
  classDecl := javaClass
  loop := Braced.loop
  conditional := Braced.conditional
  variableDecl := javaVariable
  comment := Braced.comment
  docComment := Braced.docComment
  decisions := Braced.decisionsWith Braced.ternary
  types := none
  markup := none

/-- The second language. -/
def csharp : Grammar where
  function := csharpFunction
  classDecl := csharpClass
  loop := Braced.loop
  conditional := Braced.conditional
  variableDecl := csharpVariable
  comment := Braced.comment
  docComment := (lit "///" ++ lineRest) <|> Braced.docComment
  decisions := Braced.decisionsWith spacedTernary
  types := none
  markup := none

end CodeSurvey.Grammar.Typed
