import CodeSurvey.Grammar
import CodeSurvey.Json.Basic

/-!
# Decision points

Cyclomatic complexity, counted from the words and marks at which control can take two ways.
-/

namespace CodeSurvey

/-- How complex something is, in steps. -/
inductive Level where
  | low
  | moderate
  | high
  | veryHigh
deriving DecidableEq, Repr

namespace Level

/-- The level of a cyclomatic complexity: low up to 5, moderate up to 10, high up to 20. -/
def ofCyclomatic (n : Int) : Level :=
  if n ≤ 5 then low else if n ≤ 10 then moderate else if n ≤ 20 then high else veryHigh

/-- The name of a level. -/
def name : Level → String
  | low => "Low"
  | moderate => "Moderate"
  | high => "High"
  | veryHigh => "Very High"

/-- The colour in which a level is shown. -/
def color : Level → String
  | low => "#4CAF50"
  | moderate => "#FFC107"
  | high => "#FF9800"
  | veryHigh => "#F44336"

/-- What a level means. -/
def description : Level → String
  | low => "Low complexity - easy to understand and test"
  | moderate => "Moderate complexity - still manageable"
  | high => "High complexity - consider refactoring"
  | veryHigh => "Very high complexity - hard to test and maintain"

/-- A level as a document. -/
def toJson (l : Level) : Json :=
  .obj [("level", .str l.name), ("color", .str l.color), ("description", .str l.description)]

end Level

/-- The number of decision points of each kind. -/
structure DecisionPoints where
  conditionals : Nat
  loops : Nat
  switches : Nat
  handlers : Nat
  logicalOperators : Nat
  ternaries : Nat
deriving DecidableEq, Repr

namespace DecisionPoints

/-- The decision points of a text. -/
def ofText (terms : DecisionTerms) (t : Text) : DecisionPoints where
  conditionals := terms.conditional.count t
  loops := terms.loop.count t
  switches := (terms.switchCase.map (·.count t)).getD 0
  handlers := terms.handler.count t
  logicalOperators := terms.logical.count t
  ternaries := (terms.ternary.map (·.count t)).getD 0

/-- Cyclomatic complexity: one more than the decision points, where two logical operators count as
one. -/
def cyclomatic (d : DecisionPoints) : Nat :=
  1 + d.conditionals + d.loops + d.switches + d.handlers + d.logicalOperators / 2 + d.ternaries

/-- The counts as a document. -/
def toJson (d : DecisionPoints) : Json :=
  .obj [("conditionals", .nat d.conditionals), ("loops", .nat d.loops),
    ("switches", .nat d.switches), ("catches", .nat d.handlers),
    ("logicalOperators", .nat d.logicalOperators), ("ternaries", .nat d.ternaries)]

end DecisionPoints

/-- The cyclomatic complexity of a text. -/
def Language.cyclomatic (language : Language) (t : Text) : Nat :=
  (DecisionPoints.ofText language.grammar.decisions t).cyclomatic

end CodeSurvey
