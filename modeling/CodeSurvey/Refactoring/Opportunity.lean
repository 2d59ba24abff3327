import CodeSurvey.Config
import CodeSurvey.Metric.Complexity
import CodeSurvey.Performance.Rule
import CodeSurvey.Refactoring.Duplicate

/-!
# Refactoring opportunities

Places where restructuring would likely pay off: functions beyond a threshold, duplicated blocks,
and chains of promises.
-/

namespace CodeSurvey

/-- A place where restructuring would likely pay off. -/
structure Opportunity where
  type : String
  severity : Severity
  description : String
  suggestion : String
  line : Option Int
  function : Option Text
  metric : Option Int
  pattern : Option Text
deriving DecidableEq, Repr

namespace Opportunity

/-- An opportunity as a document; what is not known is left out. -/
def toJson (o : Opportunity) : Json :=
  .obj ([("type", .str o.type), ("severity", .str o.severity.name),
      ("description", .str o.description), ("suggestion", .str o.suggestion)]
    ++ (o.line.map fun n => ("lineNumber", Json.int n)).toList
    ++ (o.function.map fun n => ("functionName", Json.text n)).toList
    ++ (o.metric.map fun n => ("metric", Json.int n)).toList
    ++ (o.pattern.map fun t => ("pattern", Json.text t)).toList)

/-- An opportunity in a function whose measure exceeds a threshold. -/
def exceeding (a : RoutineComplexity) (measure threshold : Nat) (type : String)
    (severity : Severity) (description suggestion : String) : List Opportunity :=
  if threshold < measure then
    [⟨type, severity, description, suggestion, some a.routine.startLine, some a.routine.name,
      some measure, none⟩]
  else []

/-- The opportunities in one function. -/
def ofRoutine (config : Config) (a : RoutineComplexity) : List Opportunity :=
  let name := String.ofList a.routine.name
  let c := a.complexity
  let cognitive := c.cognitive
  let depth := c.nestingDepth
  let lines := a.routine.lineCount
  let params := c.parameterCount
  exceeding a cognitive config.cognitiveThreshold "high_complexity" .high
      s!"Function '{name}' has high cognitive complexity ({cognitive})"
      "Consider breaking down into smaller functions"
    ++ exceeding a depth config.nestingThreshold "deep_nesting" .medium
      s!"Function '{name}' has deep nesting (depth: {depth})"
      "Refactor to reduce nesting using early returns or extraction"
    ++ exceeding a lines config.longFunctionLines "long_function" .medium
      s!"Function '{name}' is {lines} lines long"
      "Split the function into smaller, focused helpers"
    ++ exceeding a params config.parameterThreshold "parameter_bloat" .low
      s!"Function '{name}' takes {params} parameters"
      "Group related parameters into an object"

/-- The first fifty characters of a text, with three points if there are more. -/
def preview (t : Text) : Text :=
  t.take 50 ++ if 50 < t.length then ['.', '.', '.'] else []

/-- The opportunity that a duplicated block is. -/
def ofDuplicate (d : Duplicate) : Opportunity :=
  let count := d.count
  ⟨"duplicated_code", .medium, s!"Duplicated code pattern ({count} instances)",
    "Extract to a reusable function or constant", some d.first, none, some count,
    some (preview d.text)⟩

/-- Two steps of a chain of promises. -/
def promiseChain : Pattern :=
  Pattern.lit ".then(" ++ Pattern.star (Pattern.noneOf ")") ++ Pattern.lit ").then("

/-- The opportunity that chains of promises are, at the line of the first. -/
def ofChains (t : Text) : List Opportunity :=
  match promiseChain.findAll t with
  | [] => []
  | m :: more =>
    [⟨"promise_chaining", .medium, "Multiple promise chain detected",
      "Consider using async/await for better readability", some (Text.lineNumber t m.first), none,
      some (more.length + 1), none⟩]

/-- The opportunities in a text: function by function, then duplicates, then chains. -/
def ofText (config : Config) (language : Language) (t : Text) : List Opportunity :=
  (RoutineComplexity.ofText language t).flatMap (ofRoutine config)
    ++ (Duplicate.ofText config.duplicateMinLength t).map ofDuplicate
    ++ (if language.hasMarkup then ofChains t else [])

/-- The number of opportunities of each type, in the order of the first of each. -/
def countByType : List Opportunity → List (String × Nat)
  | [] => []
  | o :: rest =>
    let counts := countByType rest
    (o.type, (counts.lookup o.type).getD 0 + 1) :: counts.filter (·.1 ≠ o.type)

end Opportunity

end CodeSurvey
