import CodeSurvey.Grammar.Scripted
import CodeSurvey.Grammar.Typed
import CodeSurvey.Grammar.Indented

/-!
# The grammar of each language
-/

namespace CodeSurvey

/-- The grammar of a language. -/
def Language.grammar : Language → Grammar
  | .javascript => Grammar.Scripted.plain
  | .typescript => Grammar.Scripted.typed
  | .jsx => Grammar.Scripted.marked
  | .tsx => Grammar.Scripted.typedMarked
  | .python => Grammar.Indented.python
  | .java => Grammar.Typed.java
  | .csharp => Grammar.Typed.csharp

end CodeSurvey
