import CodeSurvey.Grammar.Basic

/-!
# The language told by indentation

A construct is known by the word its line starts with.
-/

namespace CodeSurvey.Grammar.Indented

open Pattern

/-- The start of a line and its indentation. -/
def indent : Pattern :=
  lineStart ++ gap

/-- A function, up to the colon that ends its signature. -/
def function : Pattern :=
  indent ++ opt (lit "async" ++ someGap) ++ lit "def" ++ someGap
    ++ group ⟨"name", "_a"⟩ name ++ gap
    ++ lit "(" ++ group ⟨"params", "_a"⟩ paramText ++ lit ")" ++ gap
    ++ opt (lit "->" ++ plus (noneOf ":\n")) ++ lit ":"

/-- A class with its bases. -/
def classDecl : Pattern :=
  indent ++ lit "class" ++ someGap ++ role "name" name ++ gap
    ++ opt (lit "(" ++ role "base" (star (noneOf ")")) ++ lit ")") ++ gap ++ lit ":"

/-- A loop. -/
def loop : Pattern :=
  indent ++ opt (lit "async" ++ someGap) ++ role "kind" (words ["for", "while"]) ++ edge

/-- A branch. -/
def conditional : Pattern :=
  indent ++ role "kind" (words ["if", "elif"]) ++ edge

/-- An assignment to one name, with or without an annotation. -/
def variableDecl : Pattern :=
  indent ++ role "name" name ++ gap ++ opt (lit ":" ++ plus (noneOf "=\n")) ++ lit "="
    ++ notAhead (lit "=")

/-- A documenting string, between three quotes of either kind. -/
def docComment : Pattern :=
  (lit "\"\"\"" ++ starFew any ++ lit "\"\"\"") <|> (lit "'''" ++ starFew any ++ lit "'''")

/-- The decision terms. -/
def decisions : DecisionTerms where
  conditional := keywords ["if", "elif"]
  loop := keywords ["for", "while"]
  handler := keyword "except"
  logical := keywords ["and", "or"]
  switchCase := none
  ternary := none
  controlFlow := ["if", "elif", "for", "while", "except"]
  conjunction := keyword "and"
  disjunction := keyword "or"

/-- The grammar. -/
def python : Grammar where
  function := function
  classDecl := classDecl
  loop := loop
  conditional := conditional
  variableDecl := variableDecl
  comment := lit "#" ++ lineRest
  docComment := docComment
  decisions := decisions
  types := none
  markup := none

end CodeSurvey.Grammar.Indented
