import Mathlib.Algebra.BigOperators.Group.Finset.Basic
import Mathlib.Algebra.Order.BigOperators.Group.Finset
import Mathlib.Data.List.GetD
import CodeSurvey.Metric.Complexity
import CodeSurvey.Proofs.Metric.Operator

/-!
# Cognitive complexity, line by line

Cognitive complexity goes through the lines with a nesting counter of its own. It is the counter behind the nesting
levels, so that the whole is a sum over the lines, each weighed at its level, and is bounded by the other metrics of the
same text.

* `share`: what a line adds, told by the nesting levels of the text.
* `complexity_eq_lineCosts`: the counter agrees with the levels. `lineCost_eq`: the cost of one line.
* `complexity_eq_sum`: cognitive complexity is the sum of the shares.
* `cognitive_le`: it is bounded by the keyword lines, the nesting depth and the logical operators.
-/

namespace CodeSurvey

namespace Cognitive

variable {language : Language} {x : Text} {level : Nat} {word : String}

/-! ## What a line adds -/

/-- What is left of a line: the blanks around it are dropped and, where braces tell nesting, the closers in front. -/
def content (language : Language) (line : Text) : Text :=
  if language.usesBraces then withoutClosers (Text.trim line) else Text.trim line

/-- The nesting level behind the line in front, which is zero for the first line. -/
def levelBefore (language : Language) (t : Text) (i : Nat) : Nat :=
  (0 :: Nesting.levels language t).getD i 0

/-- The level at which a line is weighed: where braces tell nesting, that behind the line in front, less the closers
that the line starts with; its own level otherwise. -/
def levelOf (language : Language) (t : Text) (i : Nat) : Nat :=
  if language.usesBraces then levelBefore language t i - leadingClosers (Text.trim ((Text.lines t).getD i []))
  else (Nesting.levels language t).getD i 0

/-- **A line opens with a word**: a blank, a bracket, a colon or a brace is behind it. -/
def OpensWith (word : String) (x : Text) : Prop :=
  ∃ ch rest, x = word.toList ++ ch :: rest ∧ (Text.isBlank ch = true ∨ ch = '(' ∨ ch = ':' ∨ ch = '{')

/-- **A line that breaks the flow of control**: it opens with one of the words for that. -/
def BreaksFlow (language : Language) (x : Text) : Prop :=
  ∃ word ∈ language.grammar.decisions.controlFlow, OpensWith word x

/-- **A line with a further branch**: it opens with `elif`, in a language that has the word, or starts with
`else if`. -/
def IsFurtherBranch (language : Language) (x : Text) : Prop :=
  "elif" ∈ language.grammar.decisions.controlFlow ∧ OpensWith "elif" x ∨ "else if".toList <+: x

theorem startsWith_iff : startsWith x word = true ↔ OpensWith word x := by
  have hlength : word.length = word.toList.length := String.length_toList.symm
  rw [startsWith, Bool.and_eq_true, List.isPrefixOf_iff_prefix, hlength]
  constructor
  · rintro ⟨⟨y, rfl⟩, hnext⟩
    rw [List.drop_left] at hnext
    cases y with
    | nil => cases hnext
    | cons ch rest => exact ⟨ch, rest, rfl, by simpa [or_assoc] using hnext⟩
  · rintro ⟨ch, rest, rfl, hch⟩
    rw [List.drop_left]
    exact ⟨List.prefix_append _ _, by simpa [or_assoc] using hch⟩

instance (word : String) (x : Text) : Decidable (OpensWith word x) :=
  decidable_of_iff _ startsWith_iff

instance (language : Language) (x : Text) : Decidable (BreaksFlow language x) :=
  inferInstanceAs (Decidable (∃ word ∈ language.grammar.decisions.controlFlow, OpensWith word x))

instance (language : Language) (x : Text) : Decidable (IsFurtherBranch language x) :=
  inferInstanceAs (Decidable (_ ∧ _ ∨ _))

/-- What a line adds for the word it opens with: one for a further branch, and one and the levels beyond the first for
another word that breaks the flow of control. -/
def wordShare (language : Language) (level : Nat) (x : Text) : Nat :=
  if IsFurtherBranch language x then 1 else if BreaksFlow language x then 1 + (level - 1) else 0

/-- What a line adds for its logical operators: the number of maximal runs of equal ones, from left to right. -/
def operatorShare (language : Language) (x : Text) : Nat :=
  (((language.grammar.decisions.logical.findAll x).map Match.text).splitBy (· == ·)).length

/-- **What a line of a text adds**: nothing if it is empty or a comment. -/
def share (language : Language) (t : Text) (i : Nat) : Nat :=
  let x := content language ((Text.lines t).getD i [])
  if x = [] ∨ isComment x = true then 0
  else wordShare language (levelOf language t i) x + operatorShare language x

/-! ## The cost of a line -/

/-- Words that are made of word characters are told apart by what a line opens with. -/
theorem OpensWith.takeWhile_eq (h : OpensWith word x) (hword : ∀ ch ∈ word.toList, Text.isWord ch = true) :
    x.takeWhile Text.isWord = word.toList := by
  obtain ⟨ch, rest, rfl, hch⟩ := h
  refine Text.takeWhile_append_eq hword ?_
  intro d hd
  obtain rfl : ch = d := Option.some.inj hd
  rcases hch with hch | rfl | rfl | rfl
  · exact Text.isWord_of_isBlank hch
  · decide
  · decide
  · decide

theorem keyword?_eq_elif_iff : keyword? language.grammar.decisions x = some "elif" ↔
    "elif" ∈ language.grammar.decisions.controlFlow ∧ OpensWith "elif" x := by
  have hwords : ∀ w ∈ language.grammar.decisions.controlFlow, w.toList.all Text.isWord = true := by
    cases language <;> decide
  unfold keyword?
  constructor
  · intro h
    exact ⟨List.mem_of_find?_eq_some h, startsWith_iff.1 (List.find?_some h)⟩
  · rintro ⟨hmem, hopens⟩
    cases hfind : language.grammar.decisions.controlFlow.find? (startsWith x) with
    | none => exact absurd (startsWith_iff.2 hopens) (List.find?_eq_none.1 hfind _ hmem)
    | some w =>
      -- the line opens with one word only
      have hfirst := (startsWith_iff.1 (List.find?_some hfind)).takeWhile_eq
        (List.all_eq_true.1 (hwords w (List.mem_of_find?_eq_some hfind)))
      rw [hopens.takeWhile_eq (List.all_eq_true.1 (hwords _ hmem))] at hfirst
      rw [String.toList_inj.1 hfirst]

theorem keyword?_isNone_iff : (keyword? language.grammar.decisions x).isNone = true ↔ ¬ BreaksFlow language x := by
  rw [keyword?, Option.isNone_iff_eq_none, List.find?_eq_none, BreaksFlow]
  simp only [startsWith_iff]
  exact ⟨fun h ⟨w, hw, hopens⟩ => h w hw hopens, fun h w hw hopens => h ⟨w, hw, hopens⟩⟩

theorem keywordCost_eq :
    keywordCost (keyword? language.grammar.decisions x) x (level - 1) = wordShare language level x := by
  have hbranch : (keyword? language.grammar.decisions x == some "elif" || "else if".toList.isPrefixOf x) = true ↔
      IsFurtherBranch language x := by
    rw [Bool.or_eq_true, beq_iff_eq, keyword?_eq_elif_iff, List.isPrefixOf_iff_prefix, IsFurtherBranch]
  unfold keywordCost wordShare
  simp only [hbranch, keyword?_isNone_iff, ite_not]

/-- **The cost of one line.** -/
theorem lineCost_eq (language : Language) (level : Nat) (x : Text) : lineCost language.grammar.decisions level x =
    if x = [] ∨ isComment x = true then 0 else wordShare language level x + operatorShare language x := by
  have hskip : (x.isEmpty || isComment x) = true ↔ x = [] ∨ isComment x = true := by
    rw [Bool.or_eq_true, List.isEmpty_iff]
  unfold lineCost
  simp only [hskip, keywordCost_eq, operatorRuns_eq, operatorShare]

/-! ## The counter -/

/-- **The counter of open braces agrees with the nesting levels**, from any depth and any line on. -/
theorem bracedCost_eq_sum (terms : DecisionTerms) (depth : Nat) (ls : List Text) :
    bracedCost terms depth ls = ∑ i ∈ Finset.range ls.length,
      lineCost terms ((depth :: Nesting.bracedLevels depth ls).getD i 0 - leadingClosers (Text.trim (ls.getD i [])))
        (withoutClosers (Text.trim (ls.getD i []))) := by
  induction ls generalizing depth with
  | nil => rfl
  | cons line rest ih =>
    rw [bracedCost, ih, List.length_cons, Finset.sum_range_succ', Nat.add_comm]
    simp only [Nesting.bracedLevels, List.getD_cons_succ, List.getD_cons_zero]

/-- So does the indentation. -/
theorem indentedCost_eq_sum (terms : DecisionTerms) (base : Option Nat) (ls : List Text) :
    indentedCost terms base ls = ∑ i ∈ Finset.range ls.length,
      lineCost terms ((Nesting.indentedLevels base ls).getD i 0) (Text.trim (ls.getD i [])) := by
  induction ls generalizing base with
  | nil => rfl
  | cons line rest ih =>
    rw [indentedCost, ih, List.length_cons, Finset.sum_range_succ', Nat.add_comm]
    simp only [Nesting.indentedLevels, List.getD_cons_succ, List.getD_cons_zero]

theorem complexity_eq_lineCosts (language : Language) (t : Text) : complexity language t =
    ∑ i ∈ Finset.range (Text.lines t).length, lineCost language.grammar.decisions (levelOf language t i)
      (content language ((Text.lines t).getD i [])) := by
  unfold complexity levelOf levelBefore content Nesting.levels
  split
  · exact bracedCost_eq_sum _ 0 _
  · exact indentedCost_eq_sum _ none _

/-- **Cognitive complexity is the sum of what the lines add**, each weighed by the nesting levels of the text. -/
theorem complexity_eq_sum (language : Language) (t : Text) :
    complexity language t = ∑ i ∈ Finset.range (Text.lines t).length, share language t i := by
  rw [complexity_eq_lineCosts]
  apply Finset.sum_congr rfl
  intro i _
  rw [lineCost_eq]
  rfl

/-! ## Bounds -/

/-- **A keyword line**: it breaks the flow of control, or starts with `else if`. -/
def IsKeywordLine (language : Language) (x : Text) : Prop :=
  BreaksFlow language x ∨ "else if".toList <+: x

instance (language : Language) (x : Text) : Decidable (IsKeywordLine language x) :=
  inferInstanceAs (Decidable (_ ∨ _))

/-- The number of keyword lines of a text. -/
def keywordLines (language : Language) (t : Text) : Nat :=
  (Text.lines t).countP fun line => IsKeywordLine language (content language line)

theorem le_foldl_max (l : List Nat) (a : Nat) : a ≤ l.foldl max a ∧ ∀ n ∈ l, n ≤ l.foldl max a := by
  induction l generalizing a with
  | nil => exact ⟨Nat.le_refl a, by simp⟩
  | cons b l ih =>
    obtain ⟨hstart, hrest⟩ := ih (max a b)
    refine ⟨Nat.le_trans (Nat.le_max_left a b) hstart, ?_⟩
    intro n hn
    rcases List.mem_cons.1 hn with rfl | hn
    · exact Nat.le_trans (Nat.le_max_right a n) hstart
    · exact hrest n hn

theorem getD_levels_le (language : Language) (t : Text) (i : Nat) :
    (Nesting.levels language t).getD i 0 ≤ Nesting.depth language t := by
  rcases Nat.lt_or_ge i (Nesting.levels language t).length with hi | hi
  · rw [List.getD_eq_getElem _ _ hi]
    exact (le_foldl_max _ 0).2 _ (List.getElem_mem hi)
  · rw [List.getD_eq_default _ _ hi]
    exact Nat.zero_le _

/-- No line is weighed at a level beyond the nesting depth. -/
theorem levelOf_le (language : Language) (t : Text) (i : Nat) : levelOf language t i ≤ Nesting.depth language t := by
  have hbefore : levelBefore language t i ≤ Nesting.depth language t := by
    cases i with
    | zero => exact Nat.zero_le _
    | succ i => exact getD_levels_le language t i
  unfold levelOf
  split
  · exact Nat.le_trans (Nat.sub_le _ _) hbefore
  · exact getD_levels_le language t i

theorem wordShare_le (language : Language) (x : Text) {depth : Nat} (hlevel : level ≤ depth) :
    wordShare language level x ≤ if IsKeywordLine language x then max 1 depth else 0 := by
  have hbranch : IsFurtherBranch language x → IsKeywordLine language x := by
    rintro (⟨hmem, hopens⟩ | helse)
    · exact Or.inl ⟨"elif", hmem, hopens⟩
    · exact Or.inr helse
  unfold wordShare
  split
  · rename_i h
    rw [if_pos (hbranch h)]
    exact Nat.le_max_left 1 depth
  · split
    · rename_i h
      rw [if_pos (show IsKeywordLine language x from Or.inl h)]
      omega
    · exact Nat.zero_le _

/-- **The bound for one line.** -/
theorem lineCost_le (language : Language) (x : Text) {depth : Nat} (hlevel : level ≤ depth) :
    lineCost language.grammar.decisions level x ≤
      (if IsKeywordLine language x then max 1 depth else 0) + operatorShare language x := by
  rw [lineCost_eq]
  split
  · exact Nat.zero_le _
  · exact Nat.add_le_add_right (wordShare_le language x hlevel) _

/-- A sum over the lines of a text by their numbers. -/
theorem sum_range_getD (ls : List Text) (f : Text → Nat) :
    ∑ i ∈ Finset.range ls.length, f (ls.getD i []) = (ls.map f).sum := by
  induction ls with
  | nil => rfl
  | cons line rest ih =>
    rw [List.length_cons, Finset.sum_range_succ', List.map_cons, List.sum_cons, ← ih, Nat.add_comm]
    simp only [List.getD_cons_succ, List.getD_cons_zero]

theorem sum_keywordLines (language : Language) (k : Nat) (ls : List Text) :
    (ls.map fun line => if IsKeywordLine language (content language line) then k else 0).sum
      = (ls.countP fun line => IsKeywordLine language (content language line)) * k := by
  induction ls with
  | nil => simp
  | cons line rest ih =>
    rw [List.map_cons, List.sum_cons, ih, List.countP_cons]
    by_cases h : IsKeywordLine language (content language line)
    · simp only [h, decide_true, if_true, Nat.add_mul, Nat.one_mul]
      omega
    · simp [h]

theorem count_logical_content (language : Language) (line : Text) :
    language.grammar.decisions.logical.count (content language line)
      = language.grammar.decisions.logical.count line := by
  unfold content
  split
  · rw [count_logical_withoutClosers, count_logical_trim]
  · exact count_logical_trim language line

/-- **The lines of a text have no more runs of operators than the text has operators.** -/
theorem sum_operatorShare_le (language : Language) (t : Text) :
    ((Text.lines t).map fun line => operatorShare language (content language line)).sum
      ≤ language.grammar.decisions.logical.count t := by
  rw [count_logical_lines]
  apply List.sum_le_sum
  intro line _
  rw [← count_logical_content, operatorShare, ← operatorRuns_eq]
  exact operatorRuns_le language _

end Cognitive

namespace Complexity

open Cognitive

/-- **The metrics of one text bound each other.** Cognitive complexity is at most the number of keyword lines, each
counted as often as the nesting is deep and at least once, and the number of logical operators. The runs of operators,
line by line, are no more than the operators of the whole text. -/
theorem cognitive_le (language : Language) (t : Text) (parameterCount : Nat) :
    let metrics := ofTextWith language t parameterCount
    metrics.cognitive ≤ keywordLines language t * max 1 metrics.nestingDepth + metrics.decisions.logicalOperators ∧
    ((Text.lines t).map fun line => operatorShare language (content language line)).sum
      ≤ metrics.decisions.logicalOperators := by
  intro metrics
  have hoperators := sum_operatorShare_le language t
  refine ⟨?_, hoperators⟩
  calc metrics.cognitive
      = ∑ i ∈ Finset.range (Text.lines t).length, lineCost language.grammar.decisions (levelOf language t i)
          (content language ((Text.lines t).getD i [])) := complexity_eq_lineCosts language t
    _ ≤ ∑ i ∈ Finset.range (Text.lines t).length,
          ((if IsKeywordLine language (content language ((Text.lines t).getD i [])) then
            max 1 (Nesting.depth language t) else 0) +
          operatorShare language (content language ((Text.lines t).getD i []))) :=
        Finset.sum_le_sum fun i _ => lineCost_le language _ (levelOf_le language t i)
    _ = keywordLines language t * max 1 metrics.nestingDepth +
          ((Text.lines t).map fun line => operatorShare language (content language line)).sum := by
        rw [Finset.sum_add_distrib, sum_range_getD _ fun line => operatorShare language (content language line),
          sum_range_getD _ fun line => if IsKeywordLine language (content language line) then
            max 1 (Nesting.depth language t) else 0, sum_keywordLines]
        rfl
    _ ≤ keywordLines language t * max 1 metrics.nestingDepth + metrics.decisions.logicalOperators :=
        Nat.add_le_add_left hoperators _

end Complexity

end CodeSurvey
