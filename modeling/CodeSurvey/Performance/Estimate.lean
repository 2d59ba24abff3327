import CodeSurvey.CallGraph
import CodeSurvey.Performance.IndentedLoop

/-!
# Estimates of growth

How time and space grow with the input, told by how deep loops are nested and by what happens in
them.
-/

namespace CodeSurvey

/-- An order of growth. -/
inductive Growth where
  | constant
  | linear
  | quadratic
  | cubic
deriving DecidableEq, Repr

namespace Growth

/-- Every order of growth. -/
def all : List Growth :=
  [constant, linear, quadratic, cubic]

/-- The usual notation. -/
def inNotation : Growth → String
  | constant => "O(1)"
  | linear => "O(n)"
  | quadratic => "O(n²)"
  | cubic => "O(n³)"

/-- What the growth of time is called. -/
def timeDescription : Growth → String
  | constant => "Constant time complexity"
  | linear => "Linear time complexity"
  | quadratic => "Quadratic time complexity"
  | cubic => "Cubic time complexity"

/-- What an order of growth takes off the score. -/
def penalty : Growth → Nat
  | constant => 0
  | linear => 5
  | quadratic => 15
  | cubic => 30

/-- The order of growth in the usual notation. -/
def ofNotation? (s : String) : Option Growth :=
  all.find? (·.inNotation = s)

end Growth

/-- An estimate with a short explanation. -/
structure Estimate where
  growth : Growth
  description : String
deriving DecidableEq, Repr

namespace Estimate

/-- An estimate as a document. -/
def toJson (e : Estimate) : Json :=
  .obj [("notation", .str e.growth.inNotation), ("description", .str e.description)]

/-- An estimate of time. -/
def time (g : Growth) : Estimate :=
  ⟨g, g.timeDescription⟩

/-- Constant space. -/
def constantSpace : Estimate :=
  ⟨.constant, "Constant space complexity"⟩

/-- Space for the calls of a function that calls itself. -/
def recursiveSpace : Estimate :=
  ⟨.linear, "Potentially recursive, linear space complexity"⟩

/-- Space for something that grows in a loop. -/
def growingSpace : Estimate :=
  ⟨.linear, "Creates data structures proportional to input size"⟩

open Pattern

/-- A loop word of the brace languages, the one of do loops included. -/
def bracedLoopWord : Pattern :=
  keywords ["for", "foreach", "while", "do"]

/-- A loop word and its opening brace, and then text without braces. -/
def bracedLoopHead : Pattern :=
  bracedLoopWord ++ star (noneOf "\x7b") ++ lit "\x7b" ++ star (noneOf "\x7b\x7d")

/-- A loop in a loop, by braces. -/
def bracedDouble : Pattern :=
  bracedLoopHead ++ bracedLoopWord

/-- A loop in a loop in a loop, by braces. -/
def bracedTriple : Pattern :=
  bracedLoopHead ++ bracedLoopHead ++ bracedLoopWord

/-- Something that makes or extends a list, behind the brace of a loop. -/
def bracedGrowth : Pattern :=
  bracedLoopHead ++ ((lit "new" ++ someBlanks ++ lit "Array" ++ edge)
    <|> (lit "[" ++ blanks ++ lit "]") <|> lit ".push(" <|> lit ".append(")

/-- A loop header with its colon on one line, by indentation. -/
def indentedSingle : Pattern :=
  lineStart ++ gap ++ opt (lit "async" ++ someGap) ++ IndentedLoop.loopWord ++ lineRest ++ lit ":"

/-- Something that makes or extends a list, in the body of a loop told by indentation. -/
def indentedGrowth : Pattern :=
  IndentedLoop.containing (lineRest ++ ((lit "[" ++ blanks ++ lit "]") <|> lit ".append("))

/-- The growth of time where braces tell loops. -/
def bracedTime (t : Text) : Growth :=
  if bracedTriple.foundIn t then .cubic
  else if bracedDouble.foundIn t then .quadratic
  else if bracedLoopWord.foundIn t then .linear
  else .constant

/-- The growth of time where indentation tells loops. -/
def indentedTime (t : Text) : Growth :=
  if IndentedLoop.triple.foundIn t then .cubic
  else if IndentedLoop.double.foundIn t then .quadratic
  else if indentedSingle.foundIn t then .linear
  else .constant

/-- The estimate of time, told by the deepest nesting of loops. -/
def ofTime (language : Language) (t : Text) : Estimate :=
  time (if language.usesBraces then bracedTime t else indentedTime t)

/-- Whether a body calls the function it belongs to. -/
def isRecursive (name body : Text) : Bool :=
  (callPattern name).foundIn body

/-- The estimate of space for a text whose functions have these names and bodies. -/
def ofSpace (language : Language) (t : Text) (bodies : List (Text × Text)) : Estimate :=
  if bodies.any fun b => isRecursive b.1 b.2 then recursiveSpace
  else if (if language.usesBraces then bracedGrowth else indentedGrowth).foundIn t then growingSpace
  else constantSpace

end Estimate

end CodeSurvey
