import CodeSurvey.Metric.Cognitive
import CodeSurvey.Metric.Decision
import CodeSurvey.Source.Routine

/-!
# Complexity of functions

All metrics of one function's text, for a function on its own or for every function of a text.
-/

namespace CodeSurvey

/-- The metrics of one piece of text. -/
structure Complexity where
  cognitive : Nat
  nestingDepth : Nat
  parameterCount : Nat
  decisions : DecisionPoints
deriving DecidableEq, Repr

namespace Complexity

/-- Cyclomatic complexity. -/
def cyclomatic (c : Complexity) : Nat :=
  c.decisions.cyclomatic

/-- The level, told by cyclomatic complexity. -/
def level (c : Complexity) : Level :=
  Level.ofCyclomatic c.cyclomatic

/-- The number of parameters of the first signature in a text, zero where there is none. -/
def parameterCountOf (language : Language) (t : Text) : Nat :=
  match ((language.grammar.function.findAll t).filterMap Match.signature?).head? with
  | some s => (Param.parseAll language s.params).length
  | none => 0

/-- The metrics of a text whose number of parameters is known. -/
def ofTextWith (language : Language) (t : Text) (parameterCount : Nat) : Complexity where
  cognitive := Cognitive.complexity language t
  nestingDepth := Nesting.depth language t
  parameterCount := parameterCount
  decisions := DecisionPoints.ofText language.grammar.decisions t

/-- The metrics of one function's text. -/
def ofText (language : Language) (t : Text) : Complexity :=
  ofTextWith language t (parameterCountOf language t)

/-- The fields of the metrics as a document. -/
def fields (c : Complexity) : List (String × Json) :=
  [("cyclomaticComplexity", .nat c.cyclomatic), ("cognitiveComplexity", .nat c.cognitive),
    ("nestingLevel", .nat c.nestingDepth), ("parameterCount", .nat c.parameterCount),
    ("complexityLevel", c.level.toJson), ("decisionPoints", c.decisions.toJson)]

/-- The metrics as a document. -/
def toJson (c : Complexity) : Json :=
  .obj c.fields

end Complexity

/-- A function with its metrics. -/
structure RoutineComplexity where
  routine : Routine
  complexity : Complexity

namespace RoutineComplexity

/-- The metrics of one function of a text. -/
def ofRoutine (language : Language) (t : Text) (r : Routine) : RoutineComplexity :=
  ⟨r, Complexity.ofTextWith language (r.text t) r.params.length⟩

/-- The metrics of every function of a text, in order. -/
def ofText (language : Language) (t : Text) : List RoutineComplexity :=
  (Routine.scan language t).map (ofRoutine language t)

/-- A function with its metrics as a document. -/
def toJson (a : RoutineComplexity) : Json :=
  .obj ([("name", .text a.routine.name), ("lineRange", a.routine.lineRange),
    ("lineCount", .nat a.routine.lineCount)] ++ a.complexity.fields)

end RoutineComplexity

end CodeSurvey
