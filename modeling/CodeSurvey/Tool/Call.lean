import CodeSurvey.Cache.Basic
import CodeSurvey.Tool.Argument

/-!
# Tool calls

The tools a client can call, what they are called with, and what can go wrong with a call whose
arguments are of the wrong kind.
-/

namespace CodeSurvey

/-- A tool. -/
inductive Tool where
  | analyzeCode
  | parseStructure
  | traceVariable
  | findUndocumented
  | listLanguages
  | functionComplexity
  | dependencyGraph
  | performance
  | refactoring
deriving DecidableEq, Repr

namespace Tool

/-- Every tool, in the order in which they are registered. -/
def all : List Tool :=
  [analyzeCode, parseStructure, traceVariable, findUndocumented, listLanguages,
    functionComplexity, dependencyGraph, performance, refactoring]

/-- The name of a tool. -/
def name : Tool → String
  | analyzeCode => "analyze_code"
  | parseStructure => "parse_structure"
  | traceVariable => "trace_variable"
  | findUndocumented => "find_undocumented_code"
  | listLanguages => "list_supported_languages"
  | functionComplexity => "analyze_function_complexity"
  | dependencyGraph => "build_dependency_graph"
  | performance => "analyze_performance"
  | refactoring => "find_refactoring_opportunities"

/-- The tool of a name. -/
def ofName? (s : String) : Option Tool :=
  all.find? (·.name = s)

end Tool

/-- A tool with its arguments; those that a tool does not take, or that are not given, are null. -/
structure ToolCall where
  tool : Tool
  code : Json
  language : Json
  variableName : Json
  functionName : Json

namespace ToolCall

/-- The call of a tool with the arguments of an object. -/
def ofArguments (tool : Tool) (arguments : Json) : ToolCall :=
  ⟨tool, arguments.field "code", arguments.field "language", arguments.field "variable_name",
    arguments.field "function_name"⟩

end ToolCall

/-- What makes a call fail. The word is the kind of document that was given. -/
inductive ToolFault where
  /-- The code has no length. -/
  | noLength (kind : String)
  /-- The code is no text to be searched. -/
  | notText (kind : String)
  /-- The code has no lines. -/
  | noLines (kind : String)
  /-- The language is no text, and a key was to be made of it. -/
  | keyLanguage (kind : String)
  /-- Another part of a request is no text, and a key was to be made of it. -/
  | keyPart (index : Nat) (kind : String)
  /-- The cache cannot be used. -/
  | cache (f : CacheFault)
deriving DecidableEq, Repr

namespace ToolFault

/-- The class of a fault. -/
def className : ToolFault → String
  | noLength _ => "TypeError"
  | notText _ => "TypeError"
  | noLines _ => "AttributeError"
  | keyLanguage _ => "AttributeError"
  | keyPart _ _ => "TypeError"
  | cache f => f.className

/-- The message of a fault. -/
def message : ToolFault → String
  | noLength kind => s!"object of type '{kind}' has no len()"
  | notText kind => s!"expected string or bytes-like object, got '{kind}'"
  | noLines kind => s!"'{kind}' object has no attribute 'split'"
  | keyLanguage kind => s!"'{kind}' object has no attribute 'strip'"
  | keyPart index kind => s!"sequence item {index}: expected str instance, {kind} found"
  | cache f => f.message

end ToolFault

/-- Why a call has no result: it is turned down with an answer of its own, or it fails. -/
inductive Refusal where
  | rejected (e : SurveyError)
  | failed (f : ToolFault)
deriving DecidableEq, Repr

/-- The answer to a call that is turned down. -/
def SurveyError.toJson (e : SurveyError) : Json :=
  .obj [("error", .obj [("type", .str e.kind), ("message", .text e.message)])]

namespace Argument

/-- The length of an argument, if it is of a kind that has one. -/
def length? : Json → Option Nat
  | .str s => some s.length
  | .arr items => some items.length
  | .obj fields => some fields.length
  | _ => none

/-- The text of an argument. -/
def text (j : Json) : Except Refusal Text :=
  match j with
  | .str s => .ok s.toList
  | j => .error (.failed (.notText j.kindName))

end Argument

end CodeSurvey
