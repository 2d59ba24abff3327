import CodeSurvey.CallGraph
import CodeSurvey.Features
import CodeSurvey.Metric.Complexity
import CodeSurvey.Performance.Report
import CodeSurvey.Refactoring.Opportunity

/-!
# Reports

The structural summary of a text, and the report that puts every analysis of it together.
-/

namespace CodeSurvey

/-- What a text declares, how complex it is as a whole, and which features it uses. -/
structure Summary where
  scan : Scan
  level : Level
  features : List String

namespace Summary

/-- The summary of a text. -/
def ofText (language : Language) (t : Text) : Summary :=
  let scan := Scan.ofText language t
  ⟨scan, Features.level scan, Features.ofText language t⟩

/-- A summary as a document. -/
def toJson (s : Summary) : Json :=
  .obj [("language", .str s.scan.language.id), ("structure", s.scan.structureJson),
    ("complexityLevel", s.level.toJson), ("features", .strs s.features)]

end Summary

/-- Every analysis of one text. -/
structure Report where
  summary : Summary
  functions : List RoutineComplexity
  graph : CallGraph
  performance : PerformanceReport
  functionPerformance : List RoutinePerformance
  refactorings : List Opportunity

namespace Report

/-- The report on a text. -/
def ofText (config : Config) (language : Language) (t : Text) : Report where
  summary := Summary.ofText language t
  functions := RoutineComplexity.ofText language t
  graph := CallGraph.ofText language t
  performance := PerformanceReport.ofText config language t
  functionPerformance := RoutinePerformance.ofText config language t
  refactorings := Opportunity.ofText config language t

/-- A report as a document. -/
def toJson (r : Report) : Json :=
  .obj [("parseResult", r.summary.toJson),
    ("functions", .arr (r.functions.map RoutineComplexity.toJson)),
    ("dependencyGraph", r.graph.toJson), ("performance", r.performance.toJson),
    ("functionPerformance", .arr (r.functionPerformance.map RoutinePerformance.toJson)),
    ("refactorings", .arr (r.refactorings.map Opportunity.toJson))]

end Report

end CodeSurvey
