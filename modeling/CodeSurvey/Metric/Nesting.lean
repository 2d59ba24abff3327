import CodeSurvey.Language

/-!
# Nesting

The nesting level behind each line: the number of open braces, which stray closers never bring
below zero, or the indentation relative to the first line that is not blank, in steps of four.
-/

namespace CodeSurvey.Nesting

/-- The depth behind a line, given the depth in front of it. -/
def depthAfter (depth : Nat) (line : Text) : Nat :=
  depth + line.count '{' - line.count '}'

/-- The depth behind each line. -/
def bracedLevels (depth : Nat) : List Text → List Nat
  | [] => []
  | line :: rest => depthAfter depth line :: bracedLevels (depthAfter depth line) rest

/-- The number of blanks in front of a line. -/
def blankWidth (line : Text) : Nat :=
  line.length - (Text.trimLeft line).length

/-- The level of a line, and the indentation of the first line that is not blank. -/
def indentLevel (base : Option Nat) (line : Text) : Nat × Option Nat :=
  if (Text.trimLeft line).isEmpty then (0, base)
  else
    match base with
    | none => (0, some (blankWidth line))
    | some first => ((blankWidth line - first) / 4, base)

/-- The level of each line. -/
def indentedLevels (base : Option Nat) : List Text → List Nat
  | [] => []
  | line :: rest => (indentLevel base line).1 :: indentedLevels (indentLevel base line).2 rest

/-- The nesting level behind each line of a text. -/
def levels (language : Language) (t : Text) : List Nat :=
  if language.usesBraces then bracedLevels 0 (Text.lines t) else indentedLevels none (Text.lines t)

/-- The greatest nesting level. -/
def depth (language : Language) (t : Text) : Nat :=
  (levels language t).foldl max 0

end CodeSurvey.Nesting
