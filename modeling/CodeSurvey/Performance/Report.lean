import CodeSurvey.Config
import CodeSurvey.Error
import CodeSurvey.Performance.Estimate
import CodeSurvey.Performance.Optimization

/-!
# Performance reports

The findings, estimates and advice for a text or for one of its functions, folded into a score
between 0 and 100.
-/

namespace CodeSurvey

/-- The score: a hundred, less the weights of the issues and the penalty of the growth, and three
more for each good practice, kept between 0 and 100. -/
def score (severities : List Severity) (penalty : Nat) (bestPractices : Int) : Nat :=
  let weights : Nat := (severities.map Severity.weight).foldl (· + ·) 0
  let raw : Int := 100 - weights - penalty + bestPractices * 3
  (max 0 (min 100 raw)).toNat

/-- What is known of the performance of a text. -/
structure PerformanceReport where
  issues : List Issue
  time : Estimate
  space : Estimate
  optimizations : List Optimization
  bestPractices : List BestPractice
deriving DecidableEq, Repr

namespace PerformanceReport

/-- The score of a report. -/
def overallScore (r : PerformanceReport) : Nat :=
  score (r.issues.map Issue.severity) r.time.growth.penalty r.bestPractices.length

/-- The report on nothing. -/
def empty : PerformanceReport :=
  ⟨[], .time .constant, .constantSpace, [], []⟩

/-- A report as a document. -/
def toJson (r : PerformanceReport) : Json :=
  .obj [("issues", .arr (r.issues.map Issue.toJson)),
    ("complexityMetrics", .obj [("timeComplexity", r.time.toJson),
      ("spaceComplexity", r.space.toJson)]),
    ("optimizations", .arr (r.optimizations.map Optimization.toJson)),
    ("bestPractices", .arr (r.bestPractices.map BestPractice.toJson)),
    ("overallScore", .nat r.overallScore)]

/-- The report on a text that is part of a source and holds these functions. -/
def ofPart (config : Config) (language : Language) (t source : Text) (bodies : List (Text × Text))
    (lineOffset : Nat) : PerformanceReport :=
  let rules := language.enabledRules config.disabledRules
  { issues := Issue.ofRules t lineOffset rules ++ Issue.ofMetrics language t source
    time := Estimate.ofTime language t
    space := Estimate.ofSpace language t bodies
    optimizations := Optimization.ofText language t source lineOffset
    bestPractices := BestPractice.ofRules t rules }

/-- The report on a whole text. Of functions with one name the first counts. -/
def ofText (config : Config) (language : Language) (t : Text) : PerformanceReport :=
  let bodies := (Routine.firsts (Routine.scan language t)).map fun r => (r.name, r.body t)
  ofPart config language t t bodies 0

/-- The report on one function of a text, with lines counted from the start of the text. -/
def ofRoutine (config : Config) (language : Language) (t : Text) (r : Routine) :
    PerformanceReport :=
  ofPart config language (r.text t) t [(r.name, r.body t)] (r.startLine - 1)

/-- The report on the first function of a name. -/
def ofName (config : Config) (language : Language) (t name : Text) :
    Except SurveyError PerformanceReport :=
  match (Routine.scan language t).find? (·.name = name) with
  | some r => .ok (ofRoutine config language t r)
  | none => .error (.functionNotFound name)

end PerformanceReport

/-- A function with the outcome of its report. -/
structure RoutinePerformance where
  routine : Routine
  report : PerformanceReport

namespace RoutinePerformance

/-- The reports on every function of a text, in order. -/
def ofText (config : Config) (language : Language) (t : Text) : List RoutinePerformance :=
  (Routine.scan language t).map fun r => ⟨r, PerformanceReport.ofRoutine config language t r⟩

/-- The outcome as a document. -/
def toJson (p : RoutinePerformance) : Json :=
  .obj [("name", .text p.routine.name), ("lineRange", p.routine.lineRange),
    ("score", .nat p.report.overallScore),
    ("timeComplexity", .str p.report.time.growth.inNotation),
    ("issueCount", .nat p.report.issues.length)]

end RoutinePerformance

end CodeSurvey
