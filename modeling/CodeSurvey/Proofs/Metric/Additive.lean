import CodeSurvey.Metric.Decision
import CodeSurvey.Proofs.Pattern.WholeWords

/-!
# Decision points line by line

Where blocks are told by indentation, every decision point is a whole word, and a line end is part of no word. So the
decision points of a text are those of its lines. Cyclomatic complexity is not quite additive: it counts two logical
operators as one, and two texts that each have one left over make one more together.

* `DecisionPoints.cyclomatic_add`: the complexity of two counts, and of their sum.
* `DecisionPoints.ofText_append`: the decision points on both sides of a line end.
* `DecisionPoints.ofText_lines`: the decision points of a text are those of its lines.
* `DecisionPoints.additive_over_lines`: all of it.
-/

namespace CodeSurvey.DecisionPoints

open Pattern

/-- Decision points are added kind by kind. -/
instance : Add DecisionPoints where
  add d e := {
    conditionals := d.conditionals + e.conditionals
    loops := d.loops + e.loops
    switches := d.switches + e.switches
    handlers := d.handlers + e.handlers
    logicalOperators := d.logicalOperators + e.logicalOperators
    ternaries := d.ternaries + e.ternaries }

instance : Zero DecisionPoints where
  zero := ⟨0, 0, 0, 0, 0, 0⟩

theorem add_none (d : DecisionPoints) : d + 0 = d :=
  rfl

/-- The operator that two texts make together, if each has one left over. -/
def carry (d e : DecisionPoints) : Nat :=
  if d.logicalOperators % 2 = 1 ∧ e.logicalOperators % 2 = 1 then 1 else 0

/-- **The complexity of a sum**: the one that every text starts from is counted once, and two operators that are left
over make one more. -/
theorem cyclomatic_add (d e : DecisionPoints) :
    (d + e).cyclomatic = d.cyclomatic + e.cyclomatic - 1 + carry d e := by
  have hsum : (d + e).cyclomatic = 1 + (d.conditionals + e.conditionals) + (d.loops + e.loops) +
      (d.switches + e.switches) + (d.handlers + e.handlers) + (d.logicalOperators + e.logicalOperators) / 2 +
      (d.ternaries + e.ternaries) := rfl
  -- halving drops the odd operator of each count, but two odd operators make a pair
  have hhalves : (d.logicalOperators + e.logicalOperators) / 2 =
      d.logicalOperators / 2 + e.logicalOperators / 2 + carry d e := by
    unfold carry
    split <;> omega
  rw [hsum, hhalves, cyclomatic, cyclomatic]
  omega

/-- Where indentation tells blocks, all that is counted are whole words. -/
theorem ofText_python (t : Text) : ofText Language.python.grammar.decisions t = {
    conditionals := (keywords ["if", "elif"]).count t
    loops := (keywords ["for", "while"]).count t
    switches := 0
    handlers := (keywords ["except"]).count t
    logicalOperators := (keywords ["and", "or"]).count t
    ternaries := 0 } :=
  rfl

/-- **A line end cuts a text into parts that can be counted alone.** -/
theorem ofText_append (a b : Text) : ofText Language.python.grammar.decisions (a ++ '\n' :: b) =
    ofText Language.python.grammar.decisions a + ofText Language.python.grammar.decisions b := by
  have hend : Text.isWord '\n' = false := by decide
  have hcut : ∀ words, WholeWords words →
      (keywords words).count (a ++ '\n' :: b) = (keywords words).count a + (keywords words).count b :=
    fun _ hwords => hwords.count_append hend a b
  rw [ofText_python, ofText_python, ofText_python, hcut ["if", "elif"] (by decide), hcut ["for", "while"] (by decide),
    hcut ["except"] (by decide), hcut ["and", "or"] (by decide)]
  rfl

theorem ofText_joinLines {ls : List Text} (hne : ls ≠ []) :
    ofText Language.python.grammar.decisions (Text.joinLines ls) =
      (ls.map (ofText Language.python.grammar.decisions)).sum := by
  induction ls with
  | nil => exact absurd rfl hne
  | cons line ls ih =>
    rw [List.map_cons, List.sum_cons]
    rcases eq_or_ne ls [] with rfl | hrest
    · rw [List.map_nil, List.sum_nil, add_none, Text.joinLines, Text.join_singleton]
    · rw [Text.joinLines_cons line hrest, ofText_append, ih hrest]

/-- **The decision points of a text are those of its lines.** -/
theorem ofText_lines (t : Text) : ofText Language.python.grammar.decisions t =
    ((Text.lines t).map (ofText Language.python.grammar.decisions)).sum := by
  have hne : Text.lines t ≠ [] := Text.splitWhen_ne_nil _ t
  rw [← ofText_joinLines hne, Text.joinLines_lines]

/-- **Complexity is additive over lines, up to one carry.** Each count of two texts with a line end between them is the
sum of the counts of the two, and so is their complexity, less the one it starts from and up to the operator that two
odd counts make together. So the counts of a text are the sums over its lines. -/
theorem additive_over_lines (a b t : Text) :
    let points := ofText Language.python.grammar.decisions
    points (a ++ '\n' :: b) = points a + points b ∧
    Language.python.cyclomatic (a ++ '\n' :: b) = Language.python.cyclomatic a + Language.python.cyclomatic b - 1 +
      (if (points a).logicalOperators % 2 = 1 ∧ (points b).logicalOperators % 2 = 1 then 1 else 0) ∧
    points t = ((Text.lines t).map points).sum := by
  intro points
  refine ⟨ofText_append a b, ?_, ofText_lines t⟩
  calc Language.python.cyclomatic (a ++ '\n' :: b)
      = (points a + points b).cyclomatic := congrArg cyclomatic (ofText_append a b)
    _ = Language.python.cyclomatic a + Language.python.cyclomatic b - 1 + carry (points a) (points b) :=
        cyclomatic_add _ _

end CodeSurvey.DecisionPoints
