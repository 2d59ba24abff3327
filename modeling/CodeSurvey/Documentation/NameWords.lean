import CodeSurvey.Pattern.Match
import CodeSurvey.Text.Case
import CodeSurvey.Text.Digit

/-!
# Words of a name

A name is cut into its words, and the words make a first sentence about what it names:
`getUserName` becomes "Get user name.".
-/

namespace CodeSurvey.NameWords

open Pattern

/-- A small letter. -/
def isSmall (c : Char) : Bool :=
  c.isLower

/-- A word inside a name: capitals that no small letter follows, small letters with at most one
capital in front, or digits. -/
def word : Pattern :=
  (plus (one Char.isUpper) ++ notAhead (one isSmall))
    <|> (opt (one Char.isUpper) ++ plus (one isSmall)) <|> plus (one Text.isDigit)

/-- The words of a name: the pieces between underscores or, where there are none, the words told by
case; a name without any is one word. -/
def split (name : Text) : List Text :=
  if name.contains '_' then (Text.splitWhen (· == '_') name).filter (!·.isEmpty)
  else
    match word.findAll name with
    | [] => [name]
    | found => found.map Match.text

/-- A text whose first character is a capital. -/
def capitalized : Text → Text
  | [] => []
  | c :: rest => Text.upper [c] ++ rest

/-- The first sentence about what a name stands for. -/
def describe (name : Text) : Text :=
  match split name with
  | [] => "Perform operation.".toList
  | words => capitalized (Text.join [' '] (words.map Text.lower)) ++ ['.']

/-- The first sentence about a name; an empty name has none. -/
def describe? (name : Text) : Option Text :=
  if name.isEmpty then none else some (describe name)

end CodeSurvey.NameWords
