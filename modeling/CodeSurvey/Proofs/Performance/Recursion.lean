import CodeSurvey.Performance.Report
import CodeSurvey.Proofs.CallGraph
import CodeSurvey.Proofs.Source.Placement

/-!
# Functions that call themselves

The space of a text is called recursive because of a function that calls itself. The report on a whole text asks
this of one function for each name, the one that is declared first; the report on one function asks it of that
function.

* `Routine.CallsItself`: the name of a function is called in its own body.
* `Routine.find?_scan_iff`: the first function of a name is the one in front of all others of the name.
* `PerformanceReport.space_recursive_iff`: which functions make the space of a text recursive.
-/

namespace CodeSurvey

variable {language : Language} {t : Text} {r : Routine}

namespace Routine

/-- **A function calls itself**: its name is called in its body. -/
def CallsItself (r : Routine) (t : Text) : Prop :=
  CallSite r.name (r.body t)

theorem isRecursive_iff : Estimate.isRecursive r.name (r.body t) = true ↔ r.CallsItself t :=
  callPattern_foundIn _ _

/-- Routines are scanned in the order of the text. -/
theorem scan_increasing (language : Language) (t : Text) :
    (scan language t).Pairwise fun a b => a.offset < b.offset := by
  refine (scan_pairwise language t).imp_of_mem fun {a b} ha _ hab => ?_
  obtain ⟨m, hm, hma⟩ := mem_scan ha
  exact Nat.lt_of_lt_of_le (ofMatch?_wellPlaced hm hma).offset_lt hab

/-- **The first function of a name stands in front of all others of the name.** -/
theorem find?_scan_iff (hr : r ∈ scan language t) : (scan language t).find? (·.name = r.name) = some r ↔
    ∀ q ∈ scan language t, q.name = r.name → r.offset ≤ q.offset := by
  have hsorted := scan_increasing language t
  rw [List.find?_eq_some_iff_append]
  constructor
  · rintro ⟨-, before, behind, heq, hbefore⟩ q hq hname
    rw [heq] at hsorted hq
    obtain ⟨-, hbehind, -⟩ := List.pairwise_append.1 hsorted
    -- in front of the one that is found there is none of the name, and behind it offsets are larger
    rcases List.mem_append.1 hq with hq | hq
    · exact absurd hname (by simpa using hbefore q hq)
    · rcases List.mem_cons.1 hq with rfl | hq
      · exact le_rfl
      · exact Nat.le_of_lt (List.rel_of_pairwise_cons hbehind hq)
  · intro hfirst
    obtain ⟨before, behind, heq⟩ := List.append_of_mem hr
    refine ⟨by simp, before, behind, heq, fun q hq => ?_⟩
    rw [heq] at hsorted
    have hlt := (List.pairwise_append.1 hsorted).2.2 q hq r List.mem_cons_self
    have hne : q.name ≠ r.name := by
      intro hname
      have hle := hfirst q (by simp [heq, hq]) hname
      omega
    simpa using hne

end Routine

namespace Estimate

/-- Space is recursive exactly if one of the bodies calls its own name. -/
theorem ofSpace_eq_recursive_iff (language : Language) (t : Text) (bodies : List (Text × Text)) :
    ofSpace language t bodies = recursiveSpace ↔ ∃ b ∈ bodies, isRecursive b.1 b.2 = true := by
  rw [← List.any_eq_true, ofSpace]
  by_cases hrecursive : (bodies.any fun b => isRecursive b.1 b.2) = true
  · rw [if_pos hrecursive]
    exact ⟨fun _ => hrecursive, fun _ => rfl⟩
  · rw [if_neg hrecursive]
    -- the two other estimates have texts of their own
    have hothers : growingSpace ≠ recursiveSpace ∧ constantSpace ≠ recursiveSpace := by decide
    refine ⟨fun h => ?_, fun h => absurd h hrecursive⟩
    rw [ite_eq_iff] at h
    exact h.elim (fun h => absurd h.2 hothers.1) fun h => absurd h.2 hothers.2

end Estimate

namespace PerformanceReport

/-- **Which functions make the space of a text recursive.** A function that calls itself counts exactly if no
function of its name stands in front of it. So the space is recursive exactly if some function calls itself where
all names are different; and the report on a function is exact whatever the others are called. -/
theorem space_recursive_iff (config : Config) (language : Language) (t : Text) :
    let routines := Routine.scan language t
    ((ofText config language t).space = .recursiveSpace ↔ ∃ r ∈ routines, r.CallsItself t ∧
        ∀ q ∈ routines, q.name = r.name → r.offset ≤ q.offset) ∧
      ((routines.map (·.name)).Nodup →
        ((ofText config language t).space = .recursiveSpace ↔ ∃ r ∈ routines, r.CallsItself t)) ∧
      ∀ r ∈ routines, (ofRoutine config language t r).space = .recursiveSpace ↔ r.CallsItself t := by
  intro routines
  have hfirsts : ∀ r, r ∈ Routine.firsts routines ↔
      r ∈ routines ∧ ∀ q ∈ routines, q.name = r.name → r.offset ≤ q.offset := by
    intro r
    rw [Routine.mem_firsts_iff]
    constructor
    · intro hfind
      have hr := List.mem_of_find?_eq_some hfind
      exact ⟨hr, (Routine.find?_scan_iff hr).1 hfind⟩
    · rintro ⟨hr, hfirst⟩
      exact (Routine.find?_scan_iff hr).2 hfirst
  have htext : (ofText config language t).space = .recursiveSpace ↔ ∃ r ∈ routines, r.CallsItself t ∧
      ∀ q ∈ routines, q.name = r.name → r.offset ≤ q.offset := by
    show Estimate.ofSpace _ _ _ = _ ↔ _
    rw [Estimate.ofSpace_eq_recursive_iff]
    simp only [List.mem_map, exists_exists_and_eq_and, Routine.isRecursive_iff]
    constructor
    · rintro ⟨r, hr, hcalls⟩
      obtain ⟨hmem, hfirst⟩ := (hfirsts r).1 hr
      exact ⟨r, hmem, hcalls, hfirst⟩
    · rintro ⟨r, hmem, hcalls, hfirst⟩
      exact ⟨r, (hfirsts r).2 ⟨hmem, hfirst⟩, hcalls⟩
  refine ⟨htext, fun hnodup => htext.trans ⟨?_, ?_⟩, fun r _ => ?_⟩
  · rintro ⟨r, hr, hcalls, -⟩
    exact ⟨r, hr, hcalls⟩
  · rintro ⟨r, hr, hcalls⟩
    refine ⟨r, hr, hcalls, fun q hq hname => ?_⟩
    rw [List.inj_on_of_nodup_map hnodup hq hr hname]
  · show Estimate.ofSpace _ _ _ = _ ↔ _
    rw [Estimate.ofSpace_eq_recursive_iff]
    simp only [List.mem_singleton, exists_eq_left, Routine.isRecursive_iff]

/-- **A function that calls itself is missed behind another one of its name.** -/
theorem recursion_missed_in_overload :
    let t := "int size() \x7b return 0; \x7d\nint size(int n) \x7b return size(n - 1); \x7d\n".toList
    (∃ r ∈ Routine.scan .java t, r.CallsItself t) ∧
      (ofText .standard .java t).space = .constantSpace := by
  intro t
  have hcalls : ∃ r ∈ Routine.scan .java t, Estimate.isRecursive r.name (r.body t) = true := by decide +kernel
  obtain ⟨r, hr, hrecursive⟩ := hcalls
  exact ⟨⟨r, hr, Routine.isRecursive_iff.1 hrecursive⟩, by decide +kernel⟩

end PerformanceReport

end CodeSurvey
