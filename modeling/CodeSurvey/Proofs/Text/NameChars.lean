import CodeSurvey.Grammar.Basic
import CodeSurvey.Proofs.Text.Trim

/-!
# The characters of names

What names are made of: letters and underscores to start with, word characters and, where the language has them,
dollar signs and points behind. None of these is a blank or a bracket.

* `isWord_of_isNameStart`, `isScriptNameRest_of_start`: what a name may start with, it may go on with.
* `nameChar_spec`: a character of a name is no blank, no bracket and no mark of a comment.
* `not_isScriptNameRest_iff`: where a name ends.
-/

namespace CodeSurvey.Pattern

variable {c : Char}

theorem isBlank_of_isGap (h : isGap c = true) : Text.isBlank c = true := by
  simp only [isGap, Bool.or_eq_true, beq_iff_eq] at h
  rcases h with rfl | rfl <;> decide

theorem isWord_of_isNameStart (h : isNameStart c = true) : Text.isWord c = true := by
  simp only [isNameStart, Bool.or_eq_true, beq_iff_eq] at h
  rcases h with h | rfl
  · exact Text.isWord_of_isAlpha h
  · decide

theorem isDottedRest_of_isNameStart (h : isNameStart c = true) : isDottedRest c = true := by
  simp [isDottedRest, isWord_of_isNameStart h]

theorem isDottedRest_of_isBlank (h : Text.isBlank c = true) : isDottedRest c = false := by
  by_contra hdotted
  simp only [isDottedRest, Bool.not_eq_false, Bool.or_eq_true, beq_iff_eq] at hdotted
  rcases hdotted with hword | rfl
  · simp [Text.isBlank_of_isWord hword] at h
  · exact absurd h (by decide)

theorem isScriptNameRest_of_isWord (h : Text.isWord c = true) : isScriptNameRest c = true := by
  simp [isScriptNameRest, h]

theorem isScriptNameRest_of_start (h : isScriptNameStart c = true) : isScriptNameRest c = true := by
  simp only [isScriptNameStart, Bool.or_eq_true, beq_iff_eq] at h
  rcases h with hstart | rfl
  · exact isScriptNameRest_of_isWord (isWord_of_isNameStart hstart)
  · decide

theorem not_isScriptNameRest_iff (c : Char) :
    isScriptNameRest c = false ↔ Text.isWord c = false ∧ c ≠ '$' := by
  simp [isScriptNameRest]

/-- A character of a name is no blank and none of the marks that may stand around one. -/
theorem nameChar_spec (h : isScriptNameRest c = true) :
    Text.isBlank c = false ∧ c ∉ ['(', ')', '>', '*', '/'] := by
  constructor
  · simp only [isScriptNameRest, Bool.or_eq_true, beq_iff_eq] at h
    rcases h with hword | rfl
    · exact Text.isBlank_of_isWord hword
    · decide
  · intro hmem
    simp only [List.mem_cons, List.not_mem_nil, or_false] at hmem
    rcases hmem with rfl | rfl | rfl | rfl | rfl <;> exact absurd h (by decide)

end CodeSurvey.Pattern
