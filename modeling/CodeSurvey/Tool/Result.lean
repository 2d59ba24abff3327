import CodeSurvey.Documentation.Undocumented
import CodeSurvey.Log
import CodeSurvey.Report
import CodeSurvey.Tool.Call
import CodeSurvey.Trace

/-!
# Tool results

What each tool does with its arguments under a configuration. A result comes with the facts that
are logged about it and with the trail of records that the analyses leave.
-/

namespace CodeSurvey

/-- The outcome of a tool. -/
structure ToolResult where
  answer : Json
  /-- What is logged about the outcome. -/
  facts : List (String × Json)
  /-- What the analyses log on the way. -/
  trail : List LogRecord

namespace ToolResult

/-- A record of an analysis, with the language it was for. -/
def debugRecord (language : Language) (event : String) (fields : List (String × Json)) :
    LogRecord :=
  ⟨.debug, event, ("language", .str language.id) :: fields⟩

/-- The record of a scan. -/
def scanRecord (s : Scan) : LogRecord :=
  debugRecord s.language "scan_complete"
    [("functions", .nat s.routines.length), ("elements", .nat s.elements.length)]

/-- The record of complexity metrics. -/
def complexityRecord (language : Language) (l : List RoutineComplexity) : LogRecord :=
  debugRecord language "functions_analyzed" [("total_functions", .nat l.length)]

/-- The record of a call graph. -/
def graphRecord (language : Language) (g : CallGraph) : LogRecord :=
  debugRecord language "graph_built"
    [("nodes", .nat g.nodes.length), ("links", .nat g.links.length)]

/-- The record of a performance report, on a whole text or on a function. -/
def performanceRecord (language : Language) (name : Option Text) (r : PerformanceReport) :
    LogRecord :=
  debugRecord language "performance_evaluated"
    [("function", .option .text name), ("issues", .nat r.issues.length),
      ("score", .nat r.overallScore)]

/-- The record of refactoring opportunities. -/
def refactoringRecord (language : Language) (l : List Opportunity) : LogRecord :=
  debugRecord language "refactorings_found" [("total", .nat l.length)]

/-- The trail of a full report. -/
def reportTrail (language : Language) (r : Report) : List LogRecord :=
  [scanRecord r.summary.scan, complexityRecord language r.functions, graphRecord language r.graph,
      performanceRecord language none r.performance]
    ++ r.functionPerformance.map (fun p =>
      performanceRecord language (some p.routine.name) p.report)
    ++ [complexityRecord language r.functions, refactoringRecord language r.refactorings,
      debugRecord language "analysis_complete"
        [("functions", .nat r.functions.length), ("score", .nat r.performance.overallScore)]]

/-- The full report. -/
def ofReport (language : Language) (r : Report) : ToolResult :=
  ⟨r.toJson, [("functions", .nat r.functions.length), ("score", .nat r.performance.overallScore)],
    reportTrail language r⟩

/-- The structural summary. -/
def ofSummary (s : Summary) : ToolResult :=
  ⟨s.toJson, [("functions", .nat s.scan.routines.length)], [scanRecord s.scan]⟩

/-- The metrics of every function. -/
def ofComplexity (language : Language) (l : List RoutineComplexity) : ToolResult :=
  ⟨.obj [("functions", .arr (l.map RoutineComplexity.toJson)), ("total", .nat l.length)],
    [("total_functions", .nat l.length)], [complexityRecord language l]⟩

/-- The call graph. -/
def ofGraph (language : Language) (g : CallGraph) : ToolResult :=
  ⟨g.toJson, [("nodes", .nat g.nodes.length), ("links", .nat g.links.length)],
    [graphRecord language g]⟩

/-- The performance report. -/
def ofPerformance (language : Language) (name : Option Text) (r : PerformanceReport) :
    ToolResult :=
  ⟨r.toJson, [("issues", .nat r.issues.length), ("score", .nat r.overallScore)],
    [performanceRecord language name r]⟩

/-- The refactoring opportunities, with a count for each type. -/
def ofRefactoring (language : Language) (functions : List RoutineComplexity)
    (l : List Opportunity) : ToolResult :=
  ⟨.obj [("opportunities", .arr (l.map Opportunity.toJson)), ("total", .nat l.length),
      ("byType", .obj ((Opportunity.countByType l).map fun c => (c.1, .nat c.2)))],
    [("total", .nat l.length)],
    [complexityRecord language functions, refactoringRecord language l]⟩

/-- The undocumented functions. -/
def ofUndocumented (language : Language) (l : List Undocumented) : ToolResult :=
  ⟨.obj [("undocumented", .arr (l.map Undocumented.toJson)), ("total", .nat l.length)],
    [("undocumented", .nat l.length)],
    [debugRecord language "undocumented_scan_complete" [("undocumented", .nat l.length)]]⟩

/-- The occurrences of a variable. -/
def ofTrace (language : Language) (name : Text) (l : List Occurrence) : ToolResult :=
  ⟨.obj [("variable", .text name), ("occurrences", .arr (l.map Occurrence.toJson)),
      ("definitions", .nat (Trace.definitions l))],
    [("occurrences", .nat l.length)],
    [debugRecord language "trace_complete"
      [("name", .text name), ("occurrences", .nat l.length)]]⟩

/-- The supported languages and their other spellings. -/
def languages : ToolResult :=
  ⟨.obj [("languages", .strs (Language.all.map Language.id)),
      ("aliases", .obj (Language.aliases.map fun a => (a.1, .str a.2)))], [], []⟩

end ToolResult

namespace ToolCall

/-- The language of a call, or its rejection. -/
def resolvedLanguage (c : ToolCall) : Except Refusal Language :=
  (Argument.language c.language).mapError Refusal.rejected

/-- The name to trace. What counts as absent is quoted in the rejection; anything else that is no
text cannot be searched for. -/
def tracedName (c : ToolCall) : Except Refusal Text :=
  match c.variableName with
  | .str s =>
    if Trace.isName s.toList then .ok s.toList
    else .error (.rejected (.invalidIdentifier (Text.quoted s.toList)))
  | j =>
    if j.present then .error (.failed (.notText j.kindName))
    else .error (.rejected (.invalidIdentifier j.quoted))

/-- The performance report a call asks for: on the whole text, or on the function it names. -/
def performanceResult (config : Config) (language : Language) (t : Text) (name : Json) :
    Except Refusal ToolResult :=
  if !name.present then
    .ok (.ofPerformance language none (PerformanceReport.ofText config language t))
  else
    match name with
    | .str s =>
      match PerformanceReport.ofName config language t s.toList with
      | .ok r => .ok (.ofPerformance language (some s.toList) r)
      | .error e => .error (.rejected e)
    | j => .error (.rejected (.functionNotFound j.shown))

/-- What a tool gives for a text. -/
def resultFor (config : Config) (c : ToolCall) (language : Language) (t : Text) :
    Except Refusal ToolResult :=
  match c.tool with
  | .analyzeCode => .ok (.ofReport language (Report.ofText config language t))
  | .parseStructure => .ok (.ofSummary (Summary.ofText language t))
  | .traceVariable =>
    c.tracedName.map fun name => .ofTrace language name (Trace.occurrences language t name)
  | .findUndocumented => .ok (.ofUndocumented language (Undocumented.ofText language t))
  | .listLanguages => .ok .languages
  | .functionComplexity => .ok (.ofComplexity language (RoutineComplexity.ofText language t))
  | .dependencyGraph => .ok (.ofGraph language (CallGraph.ofText language t))
  | .performance => performanceResult config language t c.functionName
  | .refactoring =>
    .ok (.ofRefactoring language (RoutineComplexity.ofText language t)
      (Opportunity.ofText config language t))

/-- What is wrong with a call that has a language: first the name to trace, then the code. -/
def checked (c : ToolCall) : Except Refusal Text :=
  match c.tool with
  | .traceVariable => c.tracedName.bind fun _ => Argument.text c.code
  | .findUndocumented =>
    match c.code with
    | .str s => .ok s.toList
    | j => .error (.failed (.noLines j.kindName))
  | _ => Argument.text c.code

/-- The outcome of a call: the language is looked at first, then the other arguments. -/
def result (config : Config) (c : ToolCall) : Except Refusal ToolResult :=
  match c.tool with
  | .listLanguages => .ok .languages
  | _ =>
    match c.resolvedLanguage with
    | .error r => .error r
    | .ok language =>
      match c.checked with
      | .error r => .error r
      | .ok t => resultFor config c language t

end ToolCall

end CodeSurvey
