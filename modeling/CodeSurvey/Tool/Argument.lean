import CodeSurvey.Error
import CodeSurvey.Json.Printer

/-!
# Arguments

What a tool is called with: documents of any kind, of which only some can be used.
-/

namespace CodeSurvey.Argument

/-- The language an argument spells. What is no text is no language. -/
def language : Json → Except SurveyError Language
  | .str s => Language.resolve s.toList
  | j => .error (.unsupportedLanguage j.shown (Language.all.map (·.id.toList)))

end CodeSurvey.Argument
