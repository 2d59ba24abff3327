import Mathlib.Order.Basic
import CodeSurvey.Performance.Report
import CodeSurvey.Proofs.Source.BlockEnd

/-!
# The time of a function and the time of its text

The growth of time is told by how deep loops are nested, as far as patterns find them in a text. What is
found in a function that is cut out cleanly is found in the text around it, and so the text grows at least
as fast as each of its functions.

* `Growth.rank`: orders of growth are ordered.
* `Growth.ofNesting`: the growth that three patterns tell, from the deepest nesting on.
* `Growth.ofNesting_mono`: where more is found, growth is not less.
* `PerformanceReport.routine_time_le`: a function grows no faster than its text.
-/

namespace CodeSurvey

open Pattern

namespace Growth

/-- How many loops stand inside one another. -/
def rank : Growth → Nat
  | constant => 0
  | linear => 1
  | quadratic => 2
  | cubic => 3

theorem rank_injective : Function.Injective rank := by
  intro a b h
  cases a <;> cases b <;> simp_all [rank]

/-- Orders of growth, from constant to cubic. -/
instance : LE Growth :=
  ⟨fun a b => a.rank ≤ b.rank⟩

instance : LinearOrder Growth :=
  LinearOrder.lift' rank rank_injective

theorem le_cubic (g : Growth) : g ≤ .cubic := by
  cases g <;> decide

theorem cubic_le_iff {g : Growth} : .cubic ≤ g ↔ g = .cubic :=
  ⟨fun h => le_antisymm g.le_cubic h, fun h => le_of_eq h.symm⟩

/-- The growth of time, told by the deepest nesting that is found. -/
def ofNesting (triple double single : Pattern) (t : Text) : Growth :=
  if triple.foundIn t then .cubic
  else if double.foundIn t then .quadratic
  else if single.foundIn t then .linear
  else .constant

variable {triple double single : Pattern} {t t' : Text}

theorem ofNesting_eq_cubic_iff :
    ofNesting triple double single t = .cubic ↔ triple.foundIn t = true := by
  unfold ofNesting
  split_ifs <;> simp_all

theorem quadratic_le_ofNesting_iff : .quadratic ≤ ofNesting triple double single t ↔
    triple.foundIn t = true ∨ double.foundIn t = true := by
  unfold ofNesting
  split_ifs <;> simp_all <;> decide

theorem linear_le_ofNesting_iff : .linear ≤ ofNesting triple double single t ↔
    triple.foundIn t = true ∨ double.foundIn t = true ∨ single.foundIn t = true := by
  unfold ofNesting
  split_ifs <;> simp_all <;> decide

/-- **Where more is found, growth is not less.** -/
theorem ofNesting_mono (htriple : triple.foundIn t = true → triple.foundIn t' = true)
    (hdouble : double.foundIn t = true → double.foundIn t' = true)
    (hsingle : single.foundIn t = true → single.foundIn t' = true) :
    ofNesting triple double single t ≤ ofNesting triple double single t' := by
  conv_lhs => unfold ofNesting
  split_ifs with h3 h2 h1
  · exact le_of_eq (ofNesting_eq_cubic_iff.2 (htriple h3)).symm
  · exact quadratic_le_ofNesting_iff.2 (Or.inr (hdouble h2))
  · exact linear_le_ofNesting_iff.2 (Or.inr (Or.inr (hsingle h1)))
  · exact Nat.zero_le _

end Growth

namespace Estimate

variable {language : Language} {t : Text}

theorem bracedTime_eq (t : Text) :
    bracedTime t = .ofNesting bracedTriple bracedDouble bracedLoopWord t := rfl

theorem growth_ofTime_braced (h : language.usesBraces = true) (t : Text) :
    (ofTime language t).growth = .ofNesting bracedTriple bracedDouble bracedLoopWord t := by
  rw [ofTime, if_pos h]
  rfl

theorem growth_ofTime_indented (h : language.usesBraces = false) (t : Text) : (ofTime language t).growth
    = .ofNesting IndentedLoop.triple IndentedLoop.double indentedSingle t := by
  rw [ofTime, if_neg (by simp [h])]
  rfl

/-- A part that is cut out cleanly, and with a line where lines matter, grows no faster than the text. -/
theorem growth_slice_le {first last : Nat} (hcut : CleanCut t first last)
    (hline : language.usesBraces = false → (Cursor.ofPlace t first).atLineStart = true) :
    (ofTime language (Text.slice t first last)).growth ≤ (ofTime language t).growth := by
  cases hbraces : language.usesBraces with
  | true =>
    rw [growth_ofTime_braced hbraces, growth_ofTime_braced hbraces]
    have hpositive : bracedTriple.isPositive = true ∧ bracedDouble.isPositive = true ∧
        bracedLoopWord.isPositive = true := by decide
    have hasks : bracedTriple.asksLine = false ∧ bracedDouble.asksLine = false ∧
        bracedLoopWord.asksLine = false := by decide
    apply Growth.ofNesting_mono
    · exact foundIn_of_slice hcut hpositive.1 fun h => by simp [hasks.1] at h
    · exact foundIn_of_slice hcut hpositive.2.1 fun h => by simp [hasks.2.1] at h
    · exact foundIn_of_slice hcut hpositive.2.2 fun h => by simp [hasks.2.2] at h
  | false =>
    rw [growth_ofTime_indented hbraces, growth_ofTime_indented hbraces]
    have hpositive : IndentedLoop.triple.isPositive = true ∧ IndentedLoop.double.isPositive = true ∧
        indentedSingle.isPositive = true := by decide
    have hstart := hline hbraces
    apply Growth.ofNesting_mono
    · exact foundIn_of_slice hcut hpositive.1 fun _ => hstart
    · exact foundIn_of_slice hcut hpositive.2.1 fun _ => hstart
    · exact foundIn_of_slice hcut hpositive.2.2 fun _ => hstart

end Estimate

namespace PerformanceReport

variable {language : Language} {t : Text} {r : Routine}

/-- **A function grows no faster than its text.** For every function that is scanned and does not start in
the middle of a word, the growth of time of its own report is at most that of the report on the whole text;
and where the function is the first of its name, there is a report on the name, with the same bound. Where
indentation tells blocks no function starts in the middle of a word. -/
theorem routine_time_le (config : Config) (hr : r ∈ Routine.scan language t) :
    (language = .python → r.StartsApart t) ∧
    (r.StartsApart t →
      (ofRoutine config language t r).time.growth ≤ (ofText config language t).time.growth ∧
      ((Routine.scan language t).find? (·.name = r.name) = some r →
        ∃ report, ofName config language t r.name = .ok report ∧
          report.time.growth ≤ (ofText config language t).time.growth)) := by
  refine ⟨?_, fun hstart => ?_⟩
  · rintro rfl
    exact Routine.startsApart_of_python hr
  · have hline : language.usesBraces = false → (Cursor.ofPlace t r.offset).atLineStart = true := by
      intro hbraces
      cases language with
      | python => exact Routine.atLineStart hr
      | javascript | typescript | jsx | tsx | java | csharp => cases hbraces
    have hle : (ofRoutine config language t r).time.growth ≤ (ofText config language t).time.growth :=
      Estimate.growth_slice_le (Routine.cleanCut hr hstart) hline
    refine ⟨hle, fun hfind => ⟨_, ?_, hle⟩⟩
    rw [ofName, hfind]

theorem routine_time_le_nested :
    let t := "let x; function f() \x7b for (;;) \x7b while (y) \x7b \x7d \x7d \x7d".toList
    let r : Routine := ⟨['f'], [], 7, 19, ⟨21, 49, 50⟩, 1, 1⟩
    r ∈ Routine.scan .javascript t ∧ r.StartsApart t ∧
      (ofRoutine .standard .javascript t r).time.growth = .quadratic ∧
      .quadratic ≤ (ofText .standard .javascript t).time.growth := by
  intro t r
  have hmem : r ∈ Routine.scan .javascript t := by decide +kernel
  have hstart : r.StartsApart t := Or.inr ⟨' ', by decide, by decide⟩
  have hgrowth : (ofRoutine .standard .javascript t r).time.growth = .quadratic := by decide +kernel
  have hle := ((routine_time_le .standard hmem).2 hstart).1
  rw [hgrowth] at hle
  exact ⟨hmem, hstart, hgrowth, hle⟩

end PerformanceReport

end CodeSurvey
