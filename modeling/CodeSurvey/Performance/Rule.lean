import CodeSurvey.Grammar.Basic
import CodeSurvey.Json.Basic

/-!
# Performance rules

A rule is a pattern with a verdict: how much it costs where the pattern is found, or that the
pattern is good practice.
-/

namespace CodeSurvey

/-- How serious a finding is; a positive finding is praise. -/
inductive Severity where
  | critical
  | high
  | medium
  | low
  | positive
deriving DecidableEq, Repr

namespace Severity

/-- Every severity, the gravest first. -/
def all : List Severity :=
  [critical, high, medium, low, positive]

/-- The name of a severity. -/
def name : Severity → String
  | critical => "critical"
  | high => "high"
  | medium => "medium"
  | low => "low"
  | positive => "positive"

/-- The severity of a name. -/
def ofName? (s : String) : Option Severity :=
  all.find? (·.name = s)

/-- The rank of a severity, the gravest highest. -/
def rank : Severity → Nat
  | critical => 4
  | high => 3
  | medium => 2
  | low => 1
  | positive => 0

/-- What a finding of this severity takes off the score. -/
def weight : Severity → Nat
  | critical => 20
  | high => 10
  | medium => 5
  | low => 2
  | positive => 0

end Severity

/-- What a rule is about. -/
inductive Category where
  | algorithmicComplexity
  | memoryManagement
  | asyncPatterns
  | resourceManagement
  | modernScript
  | rendering
  | hooks
  | idioms
deriving DecidableEq, Repr

/-- The name of a category. -/
def Category.name : Category → String
  | algorithmicComplexity => "algorithmicComplexity"
  | memoryManagement => "memoryManagement"
  | asyncPatterns => "asyncPatterns"
  | resourceManagement => "resourceManagement"
  | modernScript => "modernJavaScript"
  | rendering => "rendering"
  | hooks => "hooks"
  | idioms => "pythonIdioms"

/-- A performance rule. -/
structure Rule where
  id : String
  category : Category
  severity : Severity
  pattern : Pattern
  description : String
  suggestion : String

/-- A rule as a document, without its pattern. -/
def Rule.toJson (r : Rule) : Json :=
  .obj [("id", .str r.id), ("category", .str r.category.name), ("severity", .str r.severity.name),
    ("rank", .nat r.severity.rank), ("weight", .nat r.severity.weight),
    ("description", .str r.description), ("suggestion", .str r.suggestion)]

end CodeSurvey
