import Mathlib.Algebra.GroupWithZero.Nat
import Mathlib.Algebra.Order.BigOperators.Group.List
import Mathlib.Algebra.Order.Group.Nat
import CodeSurvey.Performance.Report

/-!
# Rules that are switched off

No rule looks at what another one finds, so a report made without some rules is the full report with their findings
left out, in the same order. Issues with a text as a whole come from no rule and stay. Leaving out issues can only raise
the score, and leaving out praise can only lower it, also where the score is cut at 0 or 100.

* `Language.AddsOnly`: what a longer list switches off is all of one kind.
* `without`: a report without the findings of some rules.
* `ofPart_disabled`: switching rules off filters the findings.
* `score_perm`, `score_mono`: the order of the issues does not matter, and what raises a score.
* `ofScope_disabled`: both for a text and for each of its functions.
-/

namespace CodeSurvey

variable {config : Config} {language : Language} {t source : Text} {disabled disabled' : List Symbols}

/-! ## Findings -/

/-- Whether a rule of this name is switched off. -/
def isDisabled (disabled : List Symbols) (id : String) : Bool :=
  disabled.contains (.ofText id.toList)

theorem isDisabled_mono (h : disabled ⊆ disabled') {id : String} (hid : isDisabled disabled id = true) :
    isDisabled disabled' id = true := by
  unfold isDisabled at hid ⊢
  rw [List.contains_iff_mem] at hid ⊢
  exact h hid

theorem Language.enabledRules_eq (language : Language) (disabled : List Symbols) :
    language.enabledRules disabled = (language.enabledRules []).filter fun r => !isDisabled disabled r.id := by
  unfold Language.enabledRules
  rw [List.filter_filter]
  apply List.filter_congr
  intro r _
  simp [isDisabled]

/-- **Of the rules that the second list switches off, those that the first one leaves on are all of one kind.** -/
def Language.AddsOnly (language : Language) (kind : Severity → Prop) (disabled disabled' : List Symbols) : Prop :=
  ∀ r ∈ language.rules, isDisabled disabled' r.id = true → isDisabled disabled r.id = false → kind r.severity

/-- So rules of another kind are on or off alike. -/
theorem Language.AddsOnly.isDisabled_eq {kind : Severity → Prop} {r : Rule}
    (hadds : language.AddsOnly kind disabled disabled') (h : disabled ⊆ disabled') (hr : r ∈ language.rules)
    (hkind : ¬kind r.severity) : isDisabled disabled' r.id = isDisabled disabled r.id := by
  cases hold : isDisabled disabled r.id with
  | true => exact isDisabled_mono h hold
  | false =>
    by_contra hnew
    rw [Bool.not_eq_false] at hnew
    exact hkind (hadds r hr hnew hold)

namespace Issue

/-- Whether an issue is one of a rule. An issue with a text as a whole has no line. -/
def isOfRule (i : Issue) : Bool :=
  i.line.isSome

/-- An issue of some rules has a line, and is one of a rule that is no praise. -/
theorem of_mem_ofRules {lineOffset : Int} {rules : List Rule} {i : Issue} (hi : i ∈ ofRules t lineOffset rules) :
    i.isOfRule = true ∧ ∃ r ∈ rules, r.severity ≠ .positive ∧ r.id = i.ruleId := by
  unfold ofRules at hi
  rw [List.mem_flatMap] at hi
  obtain ⟨r, hr, hi⟩ := hi
  unfold ofRule at hi
  split at hi
  · simp at hi
  · rename_i hsevere
    obtain ⟨m, -, rfl⟩ := List.mem_map.1 hi
    exact ⟨rfl, r, hr, hsevere, rfl⟩

theorem isOfRule_of_mem_ofMetrics {i : Issue} (hi : i ∈ ofMetrics language t source) : i.isOfRule = false := by
  have hmetric : ∀ {c : Prop} [Decidable c] {id description suggestion : String} {severity : Severity},
      i ∈ (if c then [] else [ofMetric id severity description suggestion]) → i.isOfRule = false := by
    intro c _ id description suggestion severity h
    split at h
    · simp at h
    · rw [List.mem_singleton.1 h]
      rfl
  simp only [ofMetrics, List.mem_append] at hi
  rcases hi with (hi | hi) | hi
  · exact hmetric hi
  · exact hmetric hi
  · split at hi
    · simp at hi
    · simp only [ofComponents] at hi
      split at hi
      · rw [List.mem_singleton.1 hi]
        rfl
      · simp at hi

/-- **The issues of some rules are those of all rules with the others left out.** -/
theorem ofRules_filter (keeps : String → Bool) (t : Text) (lineOffset : Int) (rules : List Rule) :
    ofRules t lineOffset (rules.filter fun r => keeps r.id)
      = (ofRules t lineOffset rules).filter fun i => keeps i.ruleId := by
  have hone : ∀ r : Rule, (ofRule t lineOffset r).filter (fun i => keeps i.ruleId)
      = if keeps r.id then ofRule t lineOffset r else [] := by
    intro r
    have hid : ∀ i ∈ ofRule t lineOffset r, i.ruleId = r.id := by
      intro i hi
      unfold ofRule at hi
      split at hi
      · simp at hi
      · obtain ⟨m, -, rfl⟩ := List.mem_map.1 hi
        rfl
    by_cases hkeeps : keeps r.id = true
    · rw [if_pos hkeeps, List.filter_eq_self]
      intro i hi
      rw [hid i hi, hkeeps]
    · rw [if_neg hkeeps, List.filter_eq_nil_iff]
      intro i hi
      rwa [hid i hi]
  unfold ofRules
  rw [List.filter_flatMap]
  induction rules with
  | nil => rfl
  | cons r rules ih =>
    rw [List.filter_cons, List.flatMap_cons, hone, ← ih]
    by_cases hkeeps : keeps r.id = true
    · rw [if_pos hkeeps, if_pos hkeeps, List.flatMap_cons]
    · rw [if_neg hkeeps, if_neg hkeeps, List.nil_append]

end Issue

namespace BestPractice

/-- The praise of some rules is that of a rule that is praise. -/
theorem of_mem_ofRules {rules : List Rule} {b : BestPractice} (hb : b ∈ ofRules t rules) :
    ∃ r ∈ rules, r.severity = .positive ∧ r.id = b.ruleId := by
  obtain ⟨r, hr, hb⟩ := List.mem_filterMap.1 hb
  unfold ofRule? at hb
  split at hb
  · rename_i hpraise
    rw [Bool.and_eq_true, decide_eq_true_eq] at hpraise
    rw [← Option.some.inj hb]
    exact ⟨r, hr, hpraise.1, rfl⟩
  · simp at hb

/-- **The praise of some rules is that of all rules with the others left out.** -/
theorem ofRules_filter (keeps : String → Bool) (t : Text) (rules : List Rule) :
    ofRules t (rules.filter fun r => keeps r.id) = (ofRules t rules).filter fun b => keeps b.ruleId := by
  unfold ofRules
  rw [List.filterMap_filter, List.filter_filterMap]
  apply List.filterMap_congr
  intro r _
  unfold ofRule?
  by_cases hpraise : (r.severity = .positive && r.pattern.foundIn t) = true
  · rw [if_pos hpraise, Option.filter_some]
  · rw [if_neg hpraise, ite_self, Option.filter_none]

end BestPractice

/-! ## Scores -/

theorem score_le (severities : List Severity) (penalty : Nat) (bestPractices : Int) :
    score severities penalty bestPractices ≤ 100 := by
  simp only [score]
  omega

/-- **The order of the issues does not matter.** -/
theorem score_perm {severities severities' : List Severity} (h : severities.Perm severities') (penalty : Nat)
    (bestPractices : Int) : score severities penalty bestPractices = score severities' penalty bestPractices := by
  have hweights := (h.map Severity.weight).foldl_eq (f := (· + ·)) 0
  unfold score
  rw [hweights]

/-- **Fewer issues and more praise never lower a score.** -/
theorem score_mono {severities severities' : List Severity} {bestPractices bestPractices' : Int}
    (h : severities'.Sublist severities) (hpraise : bestPractices ≤ bestPractices') (penalty : Nat) :
    score severities penalty bestPractices ≤ score severities' penalty bestPractices' := by
  have hweights : ((severities'.map Severity.weight).foldl (· + ·) 0 : Nat)
      ≤ (severities.map Severity.weight).foldl (· + ·) 0 := by
    rw [← List.sum_eq_foldl, ← List.sum_eq_foldl]
    exact (h.map Severity.weight).sum_le_sum fun _ _ => Nat.zero_le _
  simp only [score]
  omega

/-! ## Reports -/

namespace PerformanceReport

/-- A report without the findings of some rules. -/
def without (disabled : List Symbols) (r : PerformanceReport) : PerformanceReport :=
  { r with
    issues := r.issues.filter fun i => !(i.isOfRule && isDisabled disabled i.ruleId)
    bestPractices := r.bestPractices.filter fun b => !isDisabled disabled b.ruleId }

/-- **Switching rules off filters the findings** and leaves all else as it is. -/
theorem ofPart_disabled (config : Config) (language : Language) (t source : Text) (bodies : List (Text × Text))
    (lineOffset : Nat) (disabled : List Symbols) :
    ofPart { config with disabledRules := disabled } language t source bodies lineOffset
      = (ofPart { config with disabledRules := [] } language t source bodies lineOffset).without disabled := by
  have hissues : ∀ rules : List Rule, (Issue.ofRules t lineOffset rules).filter
        (fun i => !(i.isOfRule && isDisabled disabled i.ruleId))
      = Issue.ofRules t lineOffset (rules.filter fun r => !isDisabled disabled r.id) := by
    intro rules
    rw [Issue.ofRules_filter fun id => !isDisabled disabled id]
    apply List.filter_congr
    intro i hi
    rw [(Issue.of_mem_ofRules hi).1, Bool.true_and]
  have hmetrics : (Issue.ofMetrics language t source).filter
      (fun i => !(i.isOfRule && isDisabled disabled i.ruleId)) = Issue.ofMetrics language t source := by
    rw [List.filter_eq_self]
    intro i hi
    rw [Issue.isOfRule_of_mem_ofMetrics hi]
    rfl
  unfold ofPart without
  simp only [List.filter_append, hissues, hmetrics, ← BestPractice.ofRules_filter fun id => !isDisabled disabled id,
    ← Language.enabledRules_eq]

/-- The report on a text, or on one of its functions. -/
def ofScope (config : Config) (language : Language) (t : Text) : Option Routine → PerformanceReport
  | none => ofText config language t
  | some r => ofRoutine config language t r

/-- Every report is one on a part, and the settings have no say in which. -/
theorem exists_ofPart (language : Language) (t : Text) (scope : Option Routine) :
    ∃ part source bodies lineOffset, ∀ config : Config,
      ofScope config language t scope = ofPart config language part source bodies lineOffset := by
  cases scope with
  | none => exact ⟨_, _, _, _, fun _ => rfl⟩
  | some r => exact ⟨_, _, _, _, fun _ => rfl⟩

section Part

variable (config : Config) (language : Language) (t source : Text) (bodies : List (Text × Text)) (lineOffset : Nat)

/-- Switching off more rules leaves no new findings. -/
theorem ofPart_sublist (h : disabled ⊆ disabled') :
    (ofPart { config with disabledRules := disabled' } language t source bodies lineOffset).issues.Sublist
        (ofPart { config with disabledRules := disabled } language t source bodies lineOffset).issues ∧
      (ofPart { config with disabledRules := disabled' } language t source bodies lineOffset).bestPractices.Sublist
        (ofPart { config with disabledRules := disabled } language t source bodies lineOffset).bestPractices := by
  have hkept : ∀ {id : String}, isDisabled disabled' id = false → isDisabled disabled id = false := by
    intro id hid
    by_contra hold
    rw [Bool.not_eq_false] at hold
    rw [isDisabled_mono h hold] at hid
    simp at hid
  rw [ofPart_disabled config language t source bodies lineOffset disabled,
    ofPart_disabled config language t source bodies lineOffset disabled']
  constructor
  · apply List.monotone_filter_right
    intro i hi
    simp only [Bool.not_eq_true', Bool.and_eq_false_iff] at hi ⊢
    exact hi.imp_right hkept
  · apply List.monotone_filter_right
    intro b hb
    rw [Bool.not_eq_true'] at hb ⊢
    exact hkept hb

/-- Switching off rules that are no praise leaves all praise. -/
theorem ofPart_bestPractices_eq (h : disabled ⊆ disabled')
    (hadds : language.AddsOnly (· ≠ .positive) disabled disabled') :
    (ofPart { config with disabledRules := disabled' } language t source bodies lineOffset).bestPractices
      = (ofPart { config with disabledRules := disabled } language t source bodies lineOffset).bestPractices := by
  rw [ofPart_disabled config language t source bodies lineOffset disabled,
    ofPart_disabled config language t source bodies lineOffset disabled']
  apply List.filter_congr
  intro b hb
  obtain ⟨r, hr, hpraise, hid⟩ := BestPractice.of_mem_ofRules hb
  have hrule : r ∈ language.rules := List.mem_of_mem_filter hr
  rw [← hid, hadds.isDisabled_eq h hrule (by simp [hpraise])]

/-- Switching off praise leaves all issues. -/
theorem ofPart_issues_eq (h : disabled ⊆ disabled') (hadds : language.AddsOnly (· = .positive) disabled disabled') :
    (ofPart { config with disabledRules := disabled' } language t source bodies lineOffset).issues
      = (ofPart { config with disabledRules := disabled } language t source bodies lineOffset).issues := by
  rw [ofPart_disabled config language t source bodies lineOffset disabled,
    ofPart_disabled config language t source bodies lineOffset disabled']
  apply List.filter_congr
  intro i hi
  rcases List.mem_append.1 hi with hi | hi
  · obtain ⟨-, r, hr, hsevere, hid⟩ := Issue.of_mem_ofRules hi
    have hrule : r ∈ language.rules := List.mem_of_mem_filter hr
    rw [← hid, hadds.isDisabled_eq h hrule hsevere]
  · rw [Issue.isOfRule_of_mem_ofMetrics hi, Bool.false_and, Bool.false_and]

end Part

/-- **Switching rules off filters the findings and moves the score the right way**, for a text and for each of its
functions. The score lies between 0 and 100, and the order of the issues does not matter for it. -/
theorem ofScope_disabled (config : Config) (language : Language) (t : Text) (scope : Option Routine) :
    (∀ disabled, ofScope { config with disabledRules := disabled } language t scope
      = (ofScope { config with disabledRules := [] } language t scope).without disabled) ∧
    (∀ disabled disabled', disabled ⊆ disabled' → language.AddsOnly (· ≠ .positive) disabled disabled' →
      (ofScope { config with disabledRules := disabled } language t scope).overallScore
        ≤ (ofScope { config with disabledRules := disabled' } language t scope).overallScore) ∧
    (∀ disabled disabled', disabled ⊆ disabled' → language.AddsOnly (· = .positive) disabled disabled' →
      (ofScope { config with disabledRules := disabled' } language t scope).overallScore
        ≤ (ofScope { config with disabledRules := disabled } language t scope).overallScore) ∧
    ∀ severities penalty bestPractices, score severities penalty bestPractices ≤ 100 ∧
      ∀ severities', severities'.Perm severities →
        score severities' penalty bestPractices = score severities penalty bestPractices := by
  obtain ⟨part, source, bodies, lineOffset, hpart⟩ := exists_ofPart language t scope
  simp only [hpart]
  refine ⟨ofPart_disabled config language part source bodies lineOffset, ?_, ?_, ?_⟩
  · intro disabled disabled' h hadds
    have hissues := (ofPart_sublist config language part source bodies lineOffset h).1
    have hpraise := ofPart_bestPractices_eq config language part source bodies lineOffset h hadds
    unfold overallScore
    rw [hpraise]
    exact score_mono (hissues.map Issue.severity) le_rfl _
  · intro disabled disabled' h hadds
    have hissues := ofPart_issues_eq config language part source bodies lineOffset h hadds
    have hpraise := (ofPart_sublist config language part source bodies lineOffset h).2
    unfold overallScore
    rw [hissues]
    exact score_mono (List.Sublist.refl _) (Int.ofNat_le.2 hpraise.length_le) _
  · intro severities penalty bestPractices
    exact ⟨score_le severities penalty bestPractices, fun _ hperm => score_perm hperm penalty bestPractices⟩

/-- Nested loops and a map: the score rises without the rule on loops, and falls again without the praise. -/
theorem ofScope_disabled_loops_and_praise :
    let loops : Symbols := .ofText "nested-loops".toList
    let praise : Symbols := .ofText "efficient-collections".toList
    let scoreWithout := fun disabled => (ofScope { Config.standard with disabledRules := disabled } .javascript
      "for(a){for(b){}}new Map()".toList none).overallScore
    ([] ⊆ [loops] ∧ Language.javascript.AddsOnly (· ≠ .positive) [] [loops] ∧ scoreWithout [] ≤ scoreWithout [loops]) ∧
    ([loops] ⊆ [praise, loops] ∧ Language.javascript.AddsOnly (· = .positive) [loops] [praise, loops] ∧
      scoreWithout [praise, loops] ≤ scoreWithout [loops]) ∧
    (scoreWithout [], scoreWithout [loops], scoreWithout [praise, loops]) = (78, 88, 85) := by
  intro loops praise scoreWithout
  have hall := ofScope_disabled Config.standard .javascript "for(a){for(b){}}new Map()".toList none
  have hloops : Language.javascript.AddsOnly (· ≠ .positive) [] [loops] := by
    unfold Language.AddsOnly
    decide +kernel
  have hpraise : Language.javascript.AddsOnly (· = .positive) [loops] [praise, loops] := by
    unfold Language.AddsOnly
    decide +kernel
  have hfirst : [] ⊆ [loops] := List.nil_subset _
  have hsecond : [loops] ⊆ [praise, loops] := List.subset_cons_self praise [loops]
  refine ⟨⟨hfirst, hloops, hall.2.1 _ _ hfirst hloops⟩, ⟨hsecond, hpraise, hall.2.2.1 _ _ hsecond hpraise⟩, ?_⟩
  decide +kernel

end PerformanceReport

end CodeSurvey
