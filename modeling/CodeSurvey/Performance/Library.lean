import CodeSurvey.Performance.BracedRules
import CodeSurvey.Performance.IndentedRules
import CodeSurvey.Text.Symbol

/-!
# The rule library

Which rules apply to which language.
-/

namespace CodeSurvey

/-- The rules of a language, in the order in which they are applied. -/
def Language.rules : Language → List Rule
  | .javascript => Rules.loops ++ Rules.script
  | .typescript => Rules.loops ++ Rules.script ++ Rules.types
  | .jsx => Rules.loops ++ Rules.script ++ Rules.markup
  | .tsx => Rules.loops ++ Rules.script ++ Rules.types ++ Rules.markup
  | .java => Rules.loops ++ Rules.typed
  | .csharp => Rules.loops ++ Rules.typed
  | .python => Rules.indented

/-- The rules of a language that are not disabled. -/
def Language.enabledRules (language : Language) (disabled : List Symbols) : List Rule :=
  language.rules.filter fun r => !disabled.contains (.ofText r.id.toList)

/-- The names of a list, each once, where it first stands. -/
def firstOccurrences : List String → List String
  | [] => []
  | s :: rest => s :: (firstOccurrences rest).filter (· ≠ s)

/-- The identifiers of all rules, in the order of the languages. -/
def Rules.allIds : List String :=
  firstOccurrences
    (([.javascript, .typescript, .jsx, .tsx, .java, .csharp, .python] : List Language).flatMap
      fun l => l.rules.map Rule.id)

end CodeSurvey
