import Mathlib.Data.List.Basic
import CodeSurvey.Session

/-!
# The full report agrees with the single tools

A full report puts together what five other tools answer one by one. Each of these tools resolves
the language and scans the text for itself, so a report could contradict them, or one of its
sections another. A report resolves the language once and goes on with its identifier, which each of
its analyses resolves again.

* `Routine.map_name_firsts`: the nodes of the call graph are the names, each where it first stands.
* `Report.hasSpans`: the three lists of functions in a report have the same names and lines.
* `Language.resolve?_id`: the identifier of a language stands for it.
* `Session.answer_of_result`: without a cache the answer to a call is that of its result.
* `Session.report_agrees`: every section is what the tool of its own answers, and the lists of
  functions match entry by entry.
-/

namespace CodeSurvey

/-- Leaving elements out and dropping later copies can be done in either order. -/
theorem filter_eraseDups {α : Type} [BEq α] [LawfulBEq α] (p : α → Bool) (l : List α) :
    l.eraseDups.filter p = (l.filter p).eraseDups := by
  -- on the length, as dropping the copies of the head leaves no tail of the list
  induction h : l.length using Nat.strongRecOn generalizing l with
  | _ n ih =>
    cases l with
    | nil => rfl
    | cons a l =>
      have hlt : (l.filter fun b => !b == a).length < n := by
        have := List.length_filter_le (fun b => !b == a) l
        rw [List.length_cons] at h
        omega
      rw [List.eraseDups_cons, List.filter_cons, List.filter_cons, ih _ hlt _ rfl,
        List.filter_filter]
      by_cases ha : p a = true
      · simp only [ha, if_true, List.eraseDups_cons, List.filter_filter, Bool.and_comm]
      · have hne : ∀ b, (p b && !b == a) = p b := by
          intro b
          by_cases hb : b = a
          · simp [hb, Bool.eq_false_iff.2 ha]
          · simp [hb]
        simp only [ha, hne]
        rfl

/-- **One node for each name**, in the order in which the names come up. -/
theorem Routine.map_name_firsts (l : List Routine) :
    (firsts l).map (·.name) = (l.map (·.name)).eraseDups := by
  induction l with
  | nil => rfl
  | cons r rest ih =>
    have hfilter : ((firsts rest).filter (·.name ≠ r.name)).map (·.name)
        = ((firsts rest).map (·.name)).filter fun x => !x == r.name := by
      rw [List.filter_map]
      congr 1
      refine List.filter_congr fun x _ => ?_
      by_cases h : x.name = r.name <;> simp [h]
    rw [firsts, List.map_cons, hfilter, ih, filter_eraseDups, List.map_cons, List.eraseDups_cons]

/-- A list of functions as a document has these names and these lines, entry by entry. -/
def Json.HasSpans (j : Json) (spans : List (Text × Json)) : Prop :=
  ∃ items, j = .arr items ∧
    items.map (fun f => (f.field "name", f.field "lineRange"))
      = spans.map fun x => (.text x.1, x.2)

/-- A call graph as a document has these nodes and no others, in this order. -/
def Json.HasNodes (j : Json) (names : List Text) : Prop :=
  ∃ items, j.field "nodes" = .arr items ∧ items.map (·.field "id") = names.map .text

/-- The names of functions and the lines they span. -/
def Routine.spans (l : List Routine) : List (Text × Json) :=
  l.map fun r => (r.name, r.lineRange)

/-- Documents that each give the name and the lines of a routine have the spans of the list. -/
theorem Json.hasSpans_map {f : Routine → Json} (l : List Routine)
    (h : ∀ r, (f r).field "name" = .text r.name ∧ (f r).field "lineRange" = r.lineRange) :
    (Json.arr (l.map f)).HasSpans (Routine.spans l) := by
  refine ⟨l.map f, rfl, ?_⟩
  simp only [Routine.spans, List.map_map]
  refine List.map_congr_left fun r _ => ?_
  simp only [Function.comp_apply, (h r).1, (h r).2]

/-- A summary lists the functions of its scan among the elements. -/
theorem Summary.field_functions (s : Summary) :
    (s.toJson.field "structure").field "functions"
      = .arr (s.scan.routines.map Routine.toJson) := by
  obtain ⟨⟨language, routines, elements⟩, level, features⟩ := s
  cases language <;> rfl

/-- **The identifier of a language stands for it**, so it can be resolved again. -/
theorem Language.resolve?_id (l : Language) : resolve? l.id.toList = some l := by
  cases l <;> decide +kernel

namespace Report

variable (config : Config) (language : Language) (t : Text)

/-- **One list of functions**: those of the structure, those with metrics and those with a score are
the functions of the scan. -/
theorem hasSpans :
    let report := (ofText config language t).toJson
    let spans := Routine.spans (Routine.scan language t)
    (((report.field "parseResult").field "structure").field "functions").HasSpans spans ∧
      (report.field "functions").HasSpans spans ∧
      (report.field "functionPerformance").HasSpans spans := by
  intro report spans
  have hstructure : ((report.field "parseResult").field "structure").field "functions"
      = .arr ((Routine.scan language t).map Routine.toJson) :=
    Summary.field_functions (Summary.ofText language t)
  have hmetrics : report.field "functions"
      = .arr ((RoutineComplexity.ofText language t).map RoutineComplexity.toJson) := rfl
  have hscores : report.field "functionPerformance"
      = .arr ((RoutinePerformance.ofText config language t).map RoutinePerformance.toJson) := rfl
  refine ⟨?_, ?_, ?_⟩
  · rw [hstructure]
    exact Json.hasSpans_map _ fun r => ⟨rfl, rfl⟩
  · rw [hmetrics, RoutineComplexity.ofText, List.map_map]
    exact Json.hasSpans_map _ fun r => ⟨rfl, rfl⟩
  · rw [hscores, RoutinePerformance.ofText, List.map_map]
    exact Json.hasSpans_map _ fun r => ⟨rfl, rfl⟩

/-- The graph of a report has one node for each name of a function. -/
theorem hasNodes :
    ((ofText config language t).toJson.field "dependencyGraph").HasNodes
      ((Routine.spans (Routine.scan language t)).map Prod.fst).eraseDups := by
  have hnames : (Routine.spans (Routine.scan language t)).map Prod.fst
      = (Routine.scan language t).map (·.name) := by
    rw [Routine.spans, List.map_map]
    rfl
  refine ⟨_, rfl, ?_⟩
  rw [hnames, ← Routine.map_name_firsts]
  simp only [ofText, CallGraph.nodes_ofText, List.map_map]
  rfl

end Report

namespace Session

variable {s : Session} {c : ToolCall} {r : ToolResult} {code spelling : String}

/-- Without a cache the answer to a call that has a result is that of the result. -/
theorem answer_of_result (hcache : s.activeCache = none) (hcode : c.code = .str code)
    (h : c.result s.config = .ok r) : (s.call c).answer = .ok r.answer := by
  have hdirect : ∀ records, (s.callDirectly c records).answer = .ok r.answer := by
    intro records
    rw [callDirectly, h]
  unfold call
  simp only [hcode, Argument.length?, hcache]
  split
  case h_1 htool =>
    rw [ToolCall.result, htool] at h
    cases h
    rfl
  all_goals exact hdirect _

/-- The answer of a tool that is given a text and a language, and no name. -/
def answerOn (s : Session) (code spelling : String) (tool : Tool) : Except ToolFault Json :=
  (s.call ⟨tool, .str code, .str spelling, .null, .null⟩).answer

/-- A tool other than the tracing one answers with what it gives for the text in the language that
the spelling stands for. -/
theorem answerOn_eq {language : Language} (tool : Tool) (hcache : s.activeCache = none)
    (hl : Language.resolve? spelling.toList = some language) (htool : tool ≠ .traceVariable)
    (h : ToolCall.resultFor s.config ⟨tool, .str code, .str spelling, .null, .null⟩ language
      code.toList = .ok r) :
    s.answerOn code spelling tool = .ok r.answer := by
  refine answer_of_result hcache rfl ?_
  cases tool
  case traceVariable => exact absurd rfl htool
  case listLanguages => exact h
  all_goals
    simp only [ToolCall.result, ToolCall.resolvedLanguage, Argument.language, Language.resolve, hl,
      Except.mapError, ToolCall.checked, Argument.text]
    exact h

/-- **A report that agrees** with the answers of the single tools, and with itself: each section is
such an answer or a field of one, the lists of functions have the same names and lines, and the
nodes of the graph are these names without the later copies. -/
structure Agrees (answer : Tool → Except ToolFault Json) (report : Json) : Prop where
  parseResult : answer .parseStructure = .ok (report.field "parseResult")
  functions : ∃ j, answer .functionComplexity = .ok j ∧
    j.field "functions" = report.field "functions"
  dependencyGraph : answer .dependencyGraph = .ok (report.field "dependencyGraph")
  performance : answer .performance = .ok (report.field "performance")
  refactorings : ∃ j, answer .refactoring = .ok j ∧
    j.field "opportunities" = report.field "refactorings"
  spans : ∃ spans : List (Text × Json),
    (((report.field "parseResult").field "structure").field "functions").HasSpans spans ∧
      (report.field "functions").HasSpans spans ∧
      (report.field "functionPerformance").HasSpans spans ∧
      (report.field "dependencyGraph").HasNodes (spans.map Prod.fst).eraseDups

/-- The report on a text agrees with the tools that are given some spelling of its language. -/
theorem agrees_ofText {language : Language} (hcache : s.activeCache = none)
    (hl : Language.resolve? spelling.toList = some language) (code : String) :
    Agrees (s.answerOn code spelling) (Report.ofText s.config language code.toList).toJson := by
  obtain ⟨hstructure, hmetrics, hscores⟩ := Report.hasSpans s.config language code.toList
  have hnodes := Report.hasNodes s.config language code.toList
  exact {
    parseResult := answerOn_eq .parseStructure hcache hl (by decide) rfl
    functions := ⟨_, answerOn_eq .functionComplexity hcache hl (by decide) rfl, rfl⟩
    dependencyGraph := answerOn_eq .dependencyGraph hcache hl (by decide) rfl
    performance := answerOn_eq .performance hcache hl (by decide) rfl
    refactorings := ⟨_, answerOn_eq .refactoring hcache hl (by decide) rfl, rfl⟩
    spans := ⟨_, hstructure, hmetrics, hscores, hnodes⟩ }

/-- **Where no cache is in use, every text that comes with a spelling of a language has a full
report, and the report agrees with the tools that are asked one by one**, whatever the
configuration, also if they are given another spelling of the language, or its identifier, with
which the report itself goes on. -/
theorem report_agrees {language : Language} {spelling' : String} (hcache : s.activeCache = none)
    (hl : Language.resolve? spelling.toList = some language)
    (hl' : Language.resolve? spelling'.toList = some language) (code : String) :
    ∃ report, s.answerOn code spelling .analyzeCode = .ok report ∧
      Agrees (s.answerOn code spelling') report ∧ Agrees (s.answerOn code language.id) report :=
  ⟨(Report.ofText s.config language code.toList).toJson,
    answerOn_eq .analyzeCode hcache hl (by decide) rfl, agrees_ofText hcache hl' code,
    agrees_ofText hcache language.resolve?_id code⟩

/-- The full report on a text that declares a function twice, with the language written in two
ways. -/
theorem report_agrees_respelled :
    let code := "def f(a):\n  return g(a)\n\ndef g(b):\n  return b\n\ndef f():\n  pass\n"
    initial.activeCache = none ∧ Language.resolve? " PY\n".toList = some .python ∧
      Language.resolve? "Python".toList = some .python ∧
      ∃ report, initial.answerOn code " PY\n" .analyzeCode = .ok report ∧
        Agrees (initial.answerOn code "Python") report ∧
        Agrees (initial.answerOn code "python") report :=
  have hpy : Language.resolve? " PY\n".toList = some .python := by decide +kernel
  have hpython : Language.resolve? "Python".toList = some .python := by decide +kernel
  ⟨rfl, hpy, hpython, report_agrees rfl hpy hpython _⟩

end Session

end CodeSurvey
