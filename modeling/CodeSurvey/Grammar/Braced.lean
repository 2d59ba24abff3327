import CodeSurvey.Grammar.Basic

/-!
# Shapes of the brace languages

The patterns that all languages with braces share: comments, loops, conditionals and the terms that
complexity is counted from.
-/

namespace CodeSurvey.Grammar.Braced

open Pattern

/-- A block comment, up to its first closer. -/
def blockComment : Pattern :=
  lit "/*" ++ starFew any ++ lit "*/"

/-- A line comment or a block comment. -/
def comment : Pattern :=
  (lit "//" ++ lineRest) <|> blockComment

/-- A documenting block comment. -/
def docComment : Pattern :=
  lit "/**" ++ starFew any ++ lit "*/"

/-- A loop word with a bracketed header; the word at the end of a do loop, whose header a semicolon
follows, is left out. -/
def headedLoop : Pattern :=
  edge ++ role "kind" (words ["for", "foreach", "while"])
    ++ ahead (blanks ++ opt (lit "await" ++ blanks) ++ lit "(")
    ++ notAhead (blanks ++ lit "(" ++ unbracketed ++ lit ")" ++ blanks ++ lit ";")

/-- The word that opens a do loop. -/
def doLoop : Pattern :=
  edge ++ group ⟨"kind", "_do"⟩ (lit "do") ++ ahead (blanks ++ lit "\x7b")

/-- A loop. -/
def loop : Pattern :=
  headedLoop <|> doLoop

/-- A branching statement. -/
def conditional : Pattern :=
  edge ++ opt (lit "else" ++ someBlanks) ++ role "kind" (words ["if", "switch"])
    ++ ahead (blanks ++ lit "(")

/-- The question mark of a choice between two values; not one of an optional member, a default
value or a type. -/
def ternary : Pattern :=
  notBehind [fun c => "?.<".toList.contains c] ++ lit "?" ++ notAhead (oneOf "?.:>,=]")

/-- The decision terms, given the pattern for a choice between two values. -/
def decisionsWith (ternary : Pattern) : DecisionTerms where
  conditional := edge ++ opt (lit "else" ++ someBlanks) ++ lit "if" ++ ahead (blanks ++ lit "(")
  loop := loop
  handler := keyword "catch"
  logical := lit "&&" <|> lit "||"
  switchCase := some (keyword "case")
  ternary := some ternary
  controlFlow := ["if", "for", "foreach", "while", "catch", "switch", "do"]
  conjunction := lit "&&"
  disjunction := lit "||"

end CodeSurvey.Grammar.Braced
