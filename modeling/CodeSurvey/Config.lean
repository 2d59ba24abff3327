import CodeSurvey.Text.Symbol

/-!
# Configuration

The thresholds above which a function is worth a second look, and the rules that are switched off.
-/

namespace CodeSurvey

/-- The settings of the analyses. A function has at least one line and a duplicate at least one
character. -/
structure Config where
  cognitiveThreshold : Nat
  nestingThreshold : Nat
  longFunctionLines : Nat
  parameterThreshold : Nat
  duplicateMinLength : Nat
  disabledRules : List Symbols
deriving DecidableEq, Repr

namespace Config

/-- The settings in the absence of any other. -/
def standard : Config :=
  ⟨15, 3, 50, 5, 30, []⟩

end Config

end CodeSurvey
