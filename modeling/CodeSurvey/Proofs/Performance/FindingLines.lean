import CodeSurvey.Proofs.Performance.Disabled
import CodeSurvey.Proofs.Source.Placement

/-!
# The lines of what is found in a function

The report on a function is made from its text alone, and its lines are moved by the lines in front of it. A finding
starts inside the text of the function, so its line is the one where it stands in the whole text, and this is one of the
lines of the function.

* `Routine.PlacesLine`: a line is the one of a place of a function, and one of its lines.
* `Routine.placesLine`: so it is for each place inside the function, if lines are moved by those in front of it.
* `Issue.FoundAt`, `Optimization.FoundAt`: where a finding comes from.
* `ofRoutine_lines`: each finding in a function is on the line of the match it comes from.
-/

namespace CodeSurvey

variable {config : Config} {language : Language} {t part source : Text} {r : Routine} {lineOffset : Int} {p : Nat}

/-! ## Lines of a function -/

/-- **A line is the one of a place of a function**, counted in the whole text, and is one of its lines. -/
structure Routine.PlacesLine (r : Routine) (t : Text) (p : Nat) (line : Int) : Prop where
  line_eq : line = 1 + (t.take (r.offset + p)).count '\n'
  startLine_le : r.startLine ≤ line
  le_endLine : line ≤ r.endLine

/-- A line number in an excerpt, moved by the lines in front of it. -/
theorem Text.lineNumber_slice {first last : Nat} (h : first + p ≤ last) :
    lineNumber (slice t first last) p + (lineNumber t first - 1) = lineNumber t (first + p) := by
  have htake : (slice t first last).take p = slice t first (first + p) := by
    unfold slice
    rw [List.take_take, Nat.min_eq_left (by omega), Nat.add_sub_cancel_left]
  have hpos := lineNumber_pos t first
  rw [lineNumber_add (t := t) (Nat.le_add_right first p), ← htake]
  unfold lineNumber at hpos ⊢
  omega

/-- **Each place inside a function is on one of its lines.** -/
theorem Routine.placesLine (hr : r ∈ scan language t) (hp : p < (r.text t).length) :
    r.PlacesLine t p (Text.lineNumber (r.text t) p + ((r.startLine - 1 : Nat) : Int)) := by
  obtain ⟨m, hm, hmr⟩ := mem_scan hr
  obtain ⟨hoffset, -, -, hstart, hend⟩ := ofMatch?_places hmr
  have hlength : (r.text t).length = r.block.stop - r.offset :=
    Text.length_slice (ofMatch?_wellPlaced hm hmr).stop_le
  have hinside : r.offset + p ≤ r.block.stop - 1 := by omega
  rw [← hoffset] at hstart hend
  rw [Nat.max_eq_right (by omega)] at hend
  have hline : Text.lineNumber (r.text t) p + (r.startLine - 1) = Text.lineNumber t (r.offset + p) := by
    rw [hstart]
    exact Text.lineNumber_slice (by omega)
  have hfirst : r.startLine ≤ Text.lineNumber t (r.offset + p) := by
    rw [hstart]
    exact Text.lineNumber_mono (Nat.le_add_right _ _)
  have hlast : Text.lineNumber t (r.offset + p) ≤ r.endLine := by
    rw [hend]
    exact Text.lineNumber_mono hinside
  have hcount : Text.lineNumber t (r.offset + p) = 1 + (t.take (r.offset + p)).count '\n' := Nat.add_comm _ _
  exact ⟨by omega, by omega, by omega⟩

/-! ## Where findings come from -/

/-- **An issue comes from a match at a place**: one of a rule that is neither switched off nor praise. -/
def Issue.FoundAt (config : Config) (language : Language) (part : Text) (lineOffset : Int) (i : Issue) (p : Nat) :
    Prop :=
  ∃ rule ∈ language.enabledRules config.disabledRules, rule.severity ≠ .positive ∧
    ∃ m ∈ rule.pattern.findAll part, m.first = p ∧ i = ofMatch part lineOffset rule m

/-- **An optimization comes from a match at a place**: a component, or a call in the body of a loop. -/
def Optimization.FoundAt (language : Language) (part source : Text) (lineOffset : Int) (o : Optimization) (p : Nat) :
    Prop :=
  (∃ m ∈ componentWithProps.findAll part, m.first = p ∧ ofComponent? part source lineOffset m = some o) ∨
    ∃ s ∈ LoopBody.ofText language part, ∃ m ∈ LoopBody.call.findWithin part s.1 s.2,
      m.first = p ∧ o = ofCall part lineOffset (m.first, m.text)

/-- Every rule reads at least one character. -/
theorem Language.rules_positive (language : Language) : ∀ rule ∈ language.rules, 0 < rule.pattern.minWidth := by
  have hbraced : (Rules.loops ++ Rules.script ++ Rules.types ++ Rules.markup ++ Rules.typed).all
      (fun rule => decide (0 < rule.pattern.minWidth)) = true := by decide +kernel
  have hindented : Rules.indented.all (fun rule => decide (0 < rule.pattern.minWidth)) = true := by decide +kernel
  simp only [List.all_append, Bool.and_eq_true, List.all_eq_true, decide_eq_true_eq] at hbraced hindented
  obtain ⟨⟨⟨⟨hloops, hscript⟩, htypes⟩, hmarkup⟩, htyped⟩ := hbraced
  cases language <;> simp only [Language.rules, List.forall_mem_append]
  · exact ⟨hloops, hscript⟩
  · exact ⟨⟨hloops, hscript⟩, htypes⟩
  · exact ⟨⟨hloops, hscript⟩, hmarkup⟩
  · exact ⟨⟨⟨hloops, hscript⟩, htypes⟩, hmarkup⟩
  · exact hindented
  · exact ⟨hloops, htyped⟩
  · exact ⟨hloops, htyped⟩

namespace Issue

theorem FoundAt.lt_length {i : Issue} (h : FoundAt config language part lineOffset i p) : p < part.length := by
  obtain ⟨rule, hrule, -, m, hm, rfl, -⟩ := h
  have hpos := language.rules_positive rule (List.mem_of_mem_filter hrule)
  have hfits := Pattern.findAll_fits hm
  have hwidth := hfits.width_le
  have hlast := hfits.last_le
  omega

theorem FoundAt.line_eq {i : Issue} (h : FoundAt config language part lineOffset i p) :
    i.line = some (Text.lineNumber part p + lineOffset) := by
  obtain ⟨rule, -, -, m, -, rfl, rfl⟩ := h
  rfl

/-- The issues of rules are those that come from matches. -/
theorem mem_ofRules_iff {i : Issue} :
    i ∈ ofRules part lineOffset (language.enabledRules config.disabledRules) ↔
      ∃ p, FoundAt config language part lineOffset i p := by
  unfold ofRules
  rw [List.mem_flatMap]
  constructor
  · intro h
    obtain ⟨rule, hrule, hi⟩ := h
    unfold ofRule at hi
    split at hi
    · simp at hi
    · rename_i hsevere
      obtain ⟨m, hm, rfl⟩ := List.mem_map.1 hi
      exact ⟨m.first, rule, hrule, hsevere, m, hm, rfl, rfl⟩
  · intro h
    obtain ⟨p, rule, hrule, hsevere, m, hm, -, rfl⟩ := h
    refine ⟨rule, hrule, ?_⟩
    unfold ofRule
    rw [if_neg hsevere]
    exact List.mem_map_of_mem hm

end Issue

namespace Optimization

theorem mem_insertByPlace {c d : Nat × Text} {l : List (Nat × Text)} (h : d ∈ insertByPlace c l) : d = c ∨ d ∈ l := by
  induction l with
  | nil => simpa [insertByPlace] using h
  | cons e l ih =>
    unfold insertByPlace at h
    split at h
    · simpa using h
    · split at h
      · exact Or.inr h
      · rcases List.mem_cons.1 h with rfl | h
        · exact Or.inr List.mem_cons_self
        · exact (ih h).imp_right (List.mem_cons_of_mem _)

theorem mem_foldl_insertByPlace {d : Nat × Text} {l : List (Nat × Text)} : ∀ {found : List (Nat × Text)},
    d ∈ l.foldl (fun l c => insertByPlace c l) found → d ∈ found ∨ d ∈ l := by
  induction l with
  | nil => exact Or.inl
  | cons c l ih =>
    intro found h
    rcases ih h with h | h
    · rcases mem_insertByPlace h with rfl | h
      · exact Or.inr List.mem_cons_self
      · exact Or.inl h
    · exact Or.inr (List.mem_cons_of_mem _ h)

theorem mem_firstCalls {c : Nat × Text} {l : List (Nat × Text)} (h : c ∈ LoopBody.firstCalls l) : c ∈ l := by
  induction l with
  | nil => exact h
  | cons d l ih =>
    rcases List.mem_cons.1 h with rfl | h
    · exact List.mem_cons_self
    · exact List.mem_cons_of_mem _ (ih (List.mem_of_mem_filter h))

/-- A call that is repeated in loops is a match in the body of one of them. -/
theorem of_mem_repeatedInLoops {c : Nat × Text} (h : c ∈ repeatedInLoops language part) :
    ∃ s ∈ LoopBody.ofText language part, ∃ m ∈ LoopBody.call.findWithin part s.1 s.2, c = (m.first, m.text) := by
  have hin := (mem_foldl_insertByPlace h).resolve_left List.not_mem_nil
  obtain ⟨s, hs, hc⟩ := List.mem_flatMap.1 hin
  obtain ⟨m, hm, rfl⟩ := List.mem_map.1 (mem_firstCalls (List.mem_of_mem_filter hc))
  exact ⟨s, hs, m, hm, rfl⟩

/-- Every optimization comes from a match. -/
theorem exists_foundAt {o : Optimization} (h : o ∈ ofText language part source lineOffset) :
    ∃ p, FoundAt language part source lineOffset o p := by
  rcases List.mem_append.1 h with h | h
  · split at h
    · obtain ⟨m, hm, ho⟩ := List.mem_filterMap.1 h
      exact ⟨m.first, Or.inl ⟨m, hm, rfl, ho⟩⟩
    · simp at h
  · obtain ⟨c, hc, rfl⟩ := List.mem_map.1 h
    obtain ⟨s, hs, m, hm, rfl⟩ := of_mem_repeatedInLoops hc
    exact ⟨m.first, Or.inr ⟨s, hs, m, hm, rfl, rfl⟩⟩

theorem FoundAt.lt_length {o : Optimization} (h : FoundAt language part source lineOffset o p) : p < part.length := by
  rcases h with ⟨m, hm, rfl, -⟩ | ⟨s, -, m, hm, rfl, -⟩
  · have hpos : 0 < componentWithProps.minWidth := by decide
    have hfits := Pattern.findAll_fits hm
    have hwidth := hfits.width_le
    have hlast := hfits.last_le
    omega
  · -- the text of the search ends at the end of the body
    have hpos : 0 < LoopBody.call.minWidth := by decide
    have hfits := ((Pattern.readings_fits _ _).1 m hm).1
    rw [Cursor.ofPlace_whole] at hfits
    have hwidth := hfits.width_le
    have hlast := hfits.last_le
    rw [List.length_take] at hlast
    omega

theorem FoundAt.line_eq {o : Optimization} (h : FoundAt language part source lineOffset o p) :
    o.line = Text.lineNumber part p + lineOffset := by
  rcases h with ⟨m, -, rfl, ho⟩ | ⟨s, -, m, -, rfl, rfl⟩
  · unfold ofComponent? at ho
    simp only at ho
    split at ho
    · simp at ho
    · rw [← Option.some.inj ho]
  · rfl

end Optimization

/-! ## Reports on a function -/

namespace PerformanceReport

/-- **Each finding in a function is on the line of the match it comes from**, counted in the whole text, and this is one
of the lines of the function. The issues with a line are exactly those that come from matches, and every optimization
comes from one. -/
theorem ofRoutine_lines (config : Config) (hr : r ∈ Routine.scan language t) :
    (∀ i : Issue, i ∈ (ofRoutine config language t r).issues ∧ i.line.isSome = true ↔
      ∃ p, i.FoundAt config language (r.text t) (r.startLine - 1 : Nat) p) ∧
    (∀ (i : Issue) p, i.FoundAt config language (r.text t) (r.startLine - 1 : Nat) p →
      ∃ line, i.line = some line ∧ r.PlacesLine t p line) ∧
    (∀ o ∈ (ofRoutine config language t r).optimizations,
      ∃ p, o.FoundAt language (r.text t) t (r.startLine - 1 : Nat) p) ∧
    ∀ (o : Optimization) p, o.FoundAt language (r.text t) t (r.startLine - 1 : Nat) p →
      r.PlacesLine t p o.line := by
  refine ⟨?_, ?_, fun o ho => Optimization.exists_foundAt ho, ?_⟩
  · intro i
    rw [← Issue.mem_ofRules_iff]
    constructor
    · intro h
      rcases List.mem_append.1 h.1 with hi | hi
      · exact hi
      · have hnone : i.line.isSome = false := Issue.isOfRule_of_mem_ofMetrics hi
        rw [hnone] at h
        simp at h
    · intro hi
      obtain ⟨p, hfound⟩ := Issue.mem_ofRules_iff.1 hi
      refine ⟨List.mem_append_left _ hi, ?_⟩
      rw [hfound.line_eq]
      rfl
  · intro i p hfound
    exact ⟨_, hfound.line_eq, Routine.placesLine hr hfound.lt_length⟩
  · intro o p hfound
    rw [hfound.line_eq]
    exact Routine.placesLine hr hfound.lt_length

/-- A function on lines 3 to 8 of a text, with a loop on line 4 and a call repeated on line 5. -/
theorem ofRoutine_lines_looping :
    let t := "\n\nfunction f(a) \x7b\n for (x of a) \x7b\n  g(x); g(x);\n  for (y of a) \x7b\x7d\n \x7d\n\x7d\n".toList
    let r : Routine := ⟨['f'], [⟨['a'], none, none⟩], 2, 15, ⟨17, 69, 70⟩, 3, 8⟩
    let report := ofRoutine .standard .javascript t r
    r ∈ Routine.scan .javascript t ∧ report.issues.map Issue.line = [some 4] ∧
      report.optimizations.map Optimization.line = [5] ∧
      (∀ i ∈ report.issues, i.line.isSome = true → ∃ p line, i.line = some line ∧ r.PlacesLine t p line) ∧
      ∀ o ∈ report.optimizations, ∃ p, r.PlacesLine t p o.line := by
  intro t r report
  have hr : r ∈ Routine.scan .javascript t := by decide +kernel
  obtain ⟨hissues, hlines, hoptimizations, hplaces⟩ := ofRoutine_lines .standard hr
  refine ⟨hr, by decide +kernel, by decide +kernel, ?_, ?_⟩
  · intro i hi hline
    obtain ⟨p, hfound⟩ := (hissues i).1 ⟨hi, hline⟩
    exact ⟨p, hlines i p hfound⟩
  · intro o ho
    obtain ⟨p, hfound⟩ := hoptimizations o ho
    exact ⟨p, hplaces o p hfound⟩

end PerformanceReport

end CodeSurvey
