import CodeSurvey.Pattern.Match

/-!
# Loops told by indentation

Patterns for statements inside loops where indentation tells blocks: a header line, then lines that
are blank or indented deeper than the header, then a line that is indented deeper.
-/

namespace CodeSurvey.IndentedLoop

open Pattern

/-- The label of the indentation of the outer header. -/
def outer : Label :=
  ⟨"a", ""⟩

/-- The label of what the inner header is indented further. -/
def inner : Label :=
  ⟨"b", ""⟩

/-- A loop word. -/
def loopWord : Pattern :=
  words ["for", "while"] ++ edge

/-- The rest of a header line, from its loop word to the line end behind its colon. -/
def head : Pattern :=
  loopWord ++ lineRest ++ lit ":" ++ gap ++ lit "\n"

/-- Lines that are blank or indented deeper, the fewest first. -/
def deeperLines (indent : Pattern) : Pattern :=
  starFew ((indent ++ someGap ++ one (!Text.isBlank ·) ++ lineRest ++ lit "\n")
    <|> (gap ++ lit "\n"))

/-- An outer header and the lines of its body in front of some line of the body. -/
def outerLoop : Pattern :=
  lineStart ++ group outer gap ++ head ++ deeperLines (again outer)

/-- A statement anywhere in the body of a loop. -/
def containing (statement : Pattern) : Pattern :=
  outerLoop ++ again outer ++ someGap ++ statement

/-- A loop in a loop in a loop. -/
def triple : Pattern :=
  outerLoop ++ again outer ++ group inner someGap ++ head
    ++ deeperLines (again outer ++ again inner) ++ again outer ++ again inner ++ someGap ++ loopWord

/-- A loop in a loop. -/
def double : Pattern :=
  containing loopWord

end CodeSurvey.IndentedLoop
