import CodeSurvey.Proofs.Source.SameSignature

/-!
# Complexity of texts that are indented anew

The metrics of a text do not depend on how its lines are indented: where braces tell nesting, any indentation will do,
and where indentation does, all lines may be moved by the same spaces and tabs. Nesting and cognitive complexity are
told line by line, the other metrics by patterns that do not notice a gap.

There is one exception. A method whose exceptions are missing behind `throws` is found if two blanks come before the
brace, and not if there is only one. So it matters whether the brace on the next line is indented.

* `Text.indentLines`: all lines moved by the same gaps. `Text.SteadyBraces`: the exception is ruled out.
* `Nesting.levels_reindented`, `Cognitive.complexity_reindented`: lines with braces.
* `Nesting.levels_indentLines`, `Cognitive.complexity_indentLines`: lines without.
* `DecisionPoints.ofText_reindented`: the decision points.
* `Complexity.parameterCountOf_reindented`, `Complexity.parameterCountOf_java`: the parameters.
* `Complexity.ofText_indented_anew`: all metrics. `Complexity.ofText_brace_behind_throws`: the exception.
-/

namespace CodeSurvey

open Pattern (isGap)

/-! ## Lines -/

namespace Text

theorem isBlank_of_isGap {gaps : Text} (hgaps : ∀ ch ∈ gaps, isGap ch = true) : ∀ ch ∈ gaps, isBlank ch = true :=
  fun ch h => (isBreak_spec (by rw [isBreak, hgaps ch h, Bool.or_true])).1

theorem trim_dropIndent (line : Text) : trim (dropIndent line) = trim line := by
  conv_rhs => rw [← indent_append_dropIndent line, trim, trimLeft_append (isBlank_of_isGap isGap_of_mem_indent)]
  rfl

theorem count_dropIndent {ch : Char} (hch : isGap ch = false) (line : Text) :
    (dropIndent line).count ch = line.count ch := by
  have hindent : (indent line).count ch = 0 := by
    rw [List.count_eq_zero]
    intro hmem
    rw [isGap_of_mem_indent ch hmem] at hch
    exact absurd hch (by simp)
  conv_rhs => rw [← indent_append_dropIndent line, List.count_append, hindent, Nat.zero_add]

end Text

namespace Nesting

theorem depthAfter_dropIndent (depth : Nat) (line : Text) :
    depthAfter depth (Text.dropIndent line) = depthAfter depth line := by
  rw [depthAfter, depthAfter, Text.count_dropIndent (by decide), Text.count_dropIndent (by decide)]

theorem bracedLevels_dropIndent (ls : List Text) : ∀ depth,
    bracedLevels depth (ls.map Text.dropIndent) = bracedLevels depth ls := by
  induction ls with
  | nil => exact fun _ => rfl
  | cons line rest ih =>
    intro depth
    rw [List.map_cons, bracedLevels, bracedLevels, depthAfter_dropIndent, ih]

theorem levels_reindented {language : Language} (hbraces : language.usesBraces = true) {t u : Text}
    (h : Text.Reindented t u) : levels language t = levels language u := by
  rw [levels, levels, if_pos hbraces, if_pos hbraces, ← bracedLevels_dropIndent, h, bracedLevels_dropIndent]

end Nesting

namespace Cognitive

theorem bracedCost_dropIndent (terms : DecisionTerms) (ls : List Text) : ∀ depth,
    bracedCost terms depth (ls.map Text.dropIndent) = bracedCost terms depth ls := by
  induction ls with
  | nil => exact fun _ => rfl
  | cons line rest ih =>
    intro depth
    simp only [List.map_cons, bracedCost, Text.trim_dropIndent, Nesting.depthAfter_dropIndent, ih]

theorem complexity_reindented {language : Language} (hbraces : language.usesBraces = true) {t u : Text}
    (h : Text.Reindented t u) : complexity language t = complexity language u := by
  simp only [complexity, if_pos hbraces]
  rw [← bracedCost_dropIndent, h, bracedCost_dropIndent]

end Cognitive

/-! ## Decision points -/

namespace DecisionTerms

/-- All patterns that decision points are counted by. -/
def patterns (terms : DecisionTerms) : List Pattern :=
  [terms.conditional, terms.loop, terms.handler, terms.logical] ++ terms.switchCase.toList ++ terms.ternary.toList

/-- The terms can be counted without noticing a gap. -/
def settle (terms : DecisionTerms) : Bool :=
  terms.patterns.all fun p => 0 < p.minWidth && p.settle .even = some .quiet

end DecisionTerms

namespace DecisionPoints

theorem ofText_widened {terms : DecisionTerms} (h : terms.settle = true) (w : Widening) :
    ofText terms w.wide = ofText terms w.narrow := by
  have hcount : ∀ p ∈ terms.patterns, p.count w.wide = p.count w.narrow := by
    intro p hp
    have hsettle := List.all_eq_true.1 h p hp
    rw [Bool.and_eq_true, decide_eq_true_eq, decide_eq_true_eq] at hsettle
    exact Pattern.count_widened hsettle.1 hsettle.2 w
  simp only [DecisionTerms.patterns, List.mem_append, List.mem_cons, Option.mem_toList] at hcount
  have hoption : ∀ o : Option Pattern, (∀ p ∈ o, p.count w.wide = p.count w.narrow) →
      (o.map (·.count w.wide)).getD 0 = (o.map (·.count w.narrow)).getD 0 := by
    intro o ho
    cases o with
    | none => rfl
    | some p => exact ho p rfl
  have hcases := hoption terms.switchCase fun p hp => hcount p (.inl (.inr hp))
  have hternary := hoption terms.ternary fun p hp => hcount p (.inr hp)
  simp only [ofText, hcount terms.conditional (by simp), hcount terms.loop (by simp), hcount terms.handler (by simp),
    hcount terms.logical (by simp), hcases, hternary]

theorem ofText_reindented {terms : DecisionTerms} (h : terms.settle = true) {t u : Text} (htu : Text.Reindented t u) :
    ofText terms t = ofText terms u :=
  Text.eq_of_reindented Text.barred_never (fun w _ => ofText_widened h w) htu fun _ _ _ _ _ hbar => hbar.elim

end DecisionPoints

/-! ## Lines that are moved together -/

namespace Text

variable {gaps : Text}

/-- A line behind more gaps, unless it is blank. -/
def indentLine (gaps line : Text) : Text :=
  if (trimLeft line).isEmpty then line else gaps ++ line

/-- A text whose lines are all moved by the same gaps, but for blank ones. -/
def indentLines (gaps t : Text) : Text :=
  joinLines ((lines t).map (indentLine gaps))

theorem dropIndent_indentLine (hgaps : ∀ ch ∈ gaps, isGap ch = true) (line : Text) :
    dropIndent (indentLine gaps line) = dropIndent line := by
  unfold indentLine
  split
  · rfl
  · exact List.dropWhile_append_of_pos hgaps

theorem lines_indentLines (hgaps : ∀ ch ∈ gaps, isGap ch = true) (t : Text) :
    lines (indentLines gaps t) = (lines t).map (indentLine gaps) := by
  have hend : '\n' ∉ gaps := fun h => absurd (hgaps _ h) (by decide)
  apply lines_joinLines
  · exact fun h => splitWhen_ne_nil _ t (List.map_eq_nil_iff.1 h)
  · intro l hl
    obtain ⟨line, hline, rfl⟩ := List.mem_map.1 hl
    have hline' := no_end_of_mem_lines t line hline
    unfold indentLine
    split
    · exact hline'
    · simp [hend, hline']

theorem reindented_indentLines (hgaps : ∀ ch ∈ gaps, isGap ch = true) (t : Text) :
    Reindented t (indentLines gaps t) := by
  rw [Reindented, lines_indentLines hgaps, List.map_map]
  exact List.map_congr_left fun line _ => (dropIndent_indentLine hgaps line).symm

end Text

section

variable {gaps : Text} (hgaps : ∀ ch ∈ gaps, isGap ch = true)

include hgaps

/-- The level of a line is told by how far it stands behind the first one, so it is kept when both are moved. -/
theorem Nesting.indentLevel_indentLine (base : Option Nat) (line : Text) :
    indentLevel (base.map (· + gaps.length)) (Text.indentLine gaps line)
      = ((indentLevel base line).1, (indentLevel base line).2.map (· + gaps.length)) := by
  by_cases hblank : (Text.trimLeft line).isEmpty = true
  · simp only [indentLevel, Text.indentLine, if_pos hblank]
  · have htrim : Text.trimLeft (gaps ++ line) = Text.trimLeft line :=
      Text.trimLeft_append (Text.isBlank_of_isGap hgaps) line
    have hshort : (Text.trimLeft line).length ≤ line.length := (List.dropWhile_suffix _).length_le
    have hwidth : blankWidth (gaps ++ line) = blankWidth line + gaps.length := by
      rw [blankWidth, blankWidth, htrim, List.length_append]
      omega
    simp only [indentLevel, Text.indentLine, if_neg hblank, htrim, hwidth]
    cases base with
    | none => rfl
    | some first => simp only [Option.map_some, Nat.add_sub_add_right]

theorem Nesting.indentedLevels_map (ls : List Text) : ∀ base : Option Nat,
    indentedLevels (base.map (· + gaps.length)) (ls.map (Text.indentLine gaps)) = indentedLevels base ls := by
  induction ls with
  | nil => exact fun _ => rfl
  | cons line rest ih =>
    intro base
    rw [List.map_cons, indentedLevels, indentedLevels, indentLevel_indentLine hgaps, ih]

theorem Cognitive.indentedCost_map (terms : DecisionTerms) (ls : List Text) : ∀ base : Option Nat,
    indentedCost terms (base.map (· + gaps.length)) (ls.map (Text.indentLine gaps)) = indentedCost terms base ls := by
  induction ls with
  | nil => exact fun _ => rfl
  | cons line rest ih =>
    intro base
    have htrim : Text.trim (Text.indentLine gaps line) = Text.trim line := by
      rw [← Text.trim_dropIndent, Text.dropIndent_indentLine hgaps, Text.trim_dropIndent]
    rw [List.map_cons, indentedCost, indentedCost, Nesting.indentLevel_indentLine hgaps, htrim, ih]

theorem Nesting.levels_indentLines (t : Text) : levels .python (Text.indentLines gaps t) = levels .python t := by
  have hlevels := indentedLevels_map hgaps (Text.lines t) none
  rwa [← Text.lines_indentLines hgaps] at hlevels

theorem Cognitive.complexity_indentLines (t : Text) :
    complexity .python (Text.indentLines gaps t) = complexity .python t := by
  have hcost := indentedCost_map hgaps Language.python.grammar.decisions (Text.lines t) none
  rwa [← Text.lines_indentLines hgaps] at hcost

end

/-! ## Parameters -/

/-- Behind a line that ends in `throws`, a line that starts with a brace is indented in both texts or in neither. -/
def Text.SteadyBraces (t u : Text) : Prop :=
  ∀ k < (lines t).length, "throws".toList <:+ (lines t).getD k [] →
    (dropIndent ((lines t).getD (k + 1) [])).head? = some '{' →
    (indent ((lines t).getD (k + 1) []) = [] ↔ indent ((lines u).getD (k + 1) []) = [])

instance (t u : Text) : Decidable (Text.SteadyBraces t u) :=
  inferInstanceAs (Decidable (∀ k < (Text.lines t).length, _ → _ → _))

/-- A word that ends the lines in front stands in the last of them. -/
theorem Text.suffix_last {ls : List Text} {front word a : Text} {z : Char} (hword : '\n' ∉ word)
    (h : unlines (ls ++ [front]) = a ++ word ++ [z]) : word <:+ front := by
  have hfront : unlines ls ++ front = a ++ word := by
    rw [unlines_append, unlines_cons, show unlines [] = [] from rfl, ← List.append_assoc] at h
    exact (List.append_inj' h rfl).1
  rcases List.append_eq_append_iff.1 hfront with ⟨r, ha, hr⟩ | ⟨r, hls, hr⟩
  · exact ⟨r, hr.symm⟩
  · by_cases hnil : r = []
    · exact ⟨[], by rw [hr, hnil, List.nil_append, List.nil_append]⟩
    · -- the word would reach across the last line end
      rcases List.eq_nil_or_concat ls with rfl | ⟨init, line, rfl⟩
      · exact absurd (List.append_eq_nil_iff.1 hls.symm).2 hnil
      · have hlast : (a ++ r).getLast? = some '\n' := by
          rw [← hls, List.concat_eq_append, unlines_append, unlines_cons]
          simp [unlines]
        rw [List.getLast?_append_of_ne_nil _ hnil] at hlast
        exact absurd (hr ▸ List.mem_append_left _ (List.mem_of_getLast? hlast)) hword

theorem Text.head?_of_joinLines {line : Text} {rest : List Text} {ch : Char} (hch : ch ≠ '\n')
    (h : (joinLines (line :: rest)).head? = some ch) : line.head? = some ch := by
  cases line with
  | cons c line => cases rest <;> simpa [joinLines, join] using h
  | nil =>
    cases rest with
    | nil => exact absurd h (by simp [joinLines, join])
    | cons line rest =>
      have hend : '\n' = ch := by simpa [joinLines, join] using h
      exact absurd hend.symm hch

namespace Complexity

theorem parameterCountOf_reindented {language : Language} (hlanguage : language.isScript = true ∨ language = .python)
    {t u : Text} (h : Text.Reindented t u) : parameterCountOf language t = parameterCountOf language u := by
  have hstep : ∀ w : Widening, parameterCountOf language w.wide = parameterCountOf language w.narrow := by
    intro w
    rcases hlanguage with hscript | rfl
    · have hgrammar : language.grammar.function = Grammar.Scripted.function := by
        cases language with
        | javascript | typescript | jsx | tsx => rfl
        | python | java | csharp => exact absurd hscript (by decide)
      have hfound := Grammar.Scripted.forall₂_function w
      rw [← hgrammar] at hfound
      exact parameterCountOf_widened (by rw [hgrammar]; decide) hfound
    · exact parameterCountOf_widened (by decide) (Grammar.Indented.forall₂_function w)
  exact Text.eq_of_reindented Text.barred_never (fun w _ => hstep w) h fun _ _ _ _ _ hbar => hbar.elim

/-- A brace is waited for at the start of a line only behind a line that ends in `throws`. -/
theorem parameterCountOf_java {t u : Text} (h : Text.Reindented t u) (hsteady : Text.SteadyBraces t u) :
    parameterCountOf .java t = parameterCountOf .java u := by
  have hstep : ∀ w : Widening, ¬ Text.AwaitsBrace w.front w.back →
      parameterCountOf .java w.wide = parameterCountOf .java w.narrow := fun w hawaits =>
    parameterCountOf_widened (by decide) (Grammar.Typed.forall₂_javaFunction hawaits)
  refine (Text.eq_of_reindented Text.barred_awaitsBrace hstep h.symm ?_).symm
  intro k after before hafter hbefore hawaits
  obtain ⟨⟨a, z, hthrows⟩, hbrace⟩ := hawaits
  have hsame : Text.dropIndent after = Text.dropIndent before := by
    have hmap := congrArg (·[k]?) h.symm
    simpa [hafter, hbefore] using hmap
  have hhead : (Text.dropIndent before).head? = some '{' := by
    rw [← hsame]
    exact Text.head?_of_joinLines (by decide) hbrace
  cases k with
  | zero => exact absurd hthrows (by simp [Text.unlines])
  | succ k =>
    have hk : k + 1 < (Text.lines t).length := (List.getElem?_eq_some_iff.1 hbefore).1
    have htake : (Text.lines t).take (k + 1) = (Text.lines t).take k ++ [(Text.lines t).getD k []] := by
      rw [List.take_add_one, List.getD_eq_getElem?_getD, List.getElem?_eq_getElem (by omega)]
      rfl
    rw [htake] at hthrows
    have hindent := hsteady k (by omega) (Text.suffix_last (by decide) hthrows)
    rw [List.getD_eq_getElem?_getD, List.getD_eq_getElem?_getD, hbefore, hafter] at hindent
    exact (hindent hhead).symm

/-! ## All metrics -/

/-- What is told line by line and by the decision points, where braces tell nesting. -/
theorem ofTextWith_reindented {language : Language} (hbraces : language.usesBraces = true)
    (hsettle : language.grammar.decisions.settle = true) {t u : Text} (h : Text.Reindented t u) (n : Nat) :
    ofTextWith language u n = ofTextWith language t n := by
  rw [ofTextWith, ofTextWith, Cognitive.complexity_reindented hbraces h, Nesting.depth, Nesting.depth,
    Nesting.levels_reindented hbraces h, DecisionPoints.ofText_reindented hsettle h]

/-- **Complexity does not depend on indentation.** Where braces tell nesting, every line may be indented anew; where
indentation does, all lines may be moved by the same gaps. Only a brace with nothing but `throws` in front of it has to
stay indented, or to stay at the start of its line, for the parameters to be counted alike. -/
theorem ofText_indented_anew (t : Text) :
    (∀ (language : Language) (u : Text), language.isScript = true → Text.Reindented t u →
      ofText language u = ofText language t) ∧
    (∀ u : Text, Text.Reindented t u →
      (∀ n, ofTextWith .java u n = ofTextWith .java t n) ∧
      (Text.SteadyBraces t u → ofText .java u = ofText .java t)) ∧
    (∀ gaps : Text, (∀ ch ∈ gaps, isGap ch = true) →
      ofText .python (Text.indentLines gaps t) = ofText .python t) := by
  refine ⟨?_, ?_, ?_⟩
  · intro language u hscript h
    have hbraces : language.usesBraces = true ∧ language.grammar.decisions.settle = true := by
      cases language with
      | javascript | typescript | jsx | tsx => decide
      | python | java | csharp => exact absurd hscript (by decide)
    rw [ofText, ofText, ofTextWith_reindented hbraces.1 hbraces.2 h, parameterCountOf_reindented (.inl hscript) h]
  · intro u h
    have hjava : ∀ n, ofTextWith .java u n = ofTextWith .java t n := ofTextWith_reindented rfl (by decide) h
    refine ⟨hjava, fun hsteady => ?_⟩
    rw [ofText, ofText, hjava, parameterCountOf_java h hsteady]
  · intro gaps hgaps
    have h := Text.reindented_indentLines hgaps t
    rw [ofText, ofText, ofTextWith, ofTextWith, Cognitive.complexity_indentLines hgaps, Nesting.depth, Nesting.depth,
      Nesting.levels_indentLines hgaps, ← DecisionPoints.ofText_reindented (by decide) h,
      ← parameterCountOf_reindented (.inr rfl) h]

theorem ofText_indented_anew_sample :
    (Text.Reindented "function f(a,\n  b) \x7b\n    if (a && b) \x7b\n\t\x7d\n\x7d".toList
        "\t function f(a,\nb) \x7b\nif (a && b) \x7b\n \x7d\n  \x7d".toList ∧
      ofText .tsx "\t function f(a,\nb) \x7b\nif (a && b) \x7b\n \x7d\n  \x7d".toList
        = ofText .tsx "function f(a,\n  b) \x7b\n    if (a && b) \x7b\n\t\x7d\n\x7d".toList) ∧
    (Text.SteadyBraces "void f(int a) throws\n \x7b\n\x7d".toList "  void f(int a) throws\n\t\t\x7b\n \x7d".toList ∧
      ofText .java "  void f(int a) throws\n\t\t\x7b\n \x7d".toList
        = ofText .java "void f(int a) throws\n \x7b\n\x7d".toList) ∧
    ((∀ ch ∈ "\t ".toList, isGap ch = true) ∧
      ofText .python (Text.indentLines "\t ".toList "def f(a):\n\n    if a:\n        return 1".toList)
        = ofText .python "def f(a):\n\n    if a:\n        return 1".toList) := by
  have hsteady : Text.SteadyBraces "void f(int a) throws\n \x7b\n\x7d".toList
      "  void f(int a) throws\n\t\t\x7b\n \x7d".toList := by decide +kernel
  have hscript : Text.Reindented "function f(a,\n  b) \x7b\n    if (a && b) \x7b\n\t\x7d\n\x7d".toList
      "\t function f(a,\nb) \x7b\nif (a && b) \x7b\n \x7d\n  \x7d".toList := by decide +kernel
  have hgaps : ∀ ch ∈ "\t ".toList, isGap ch = true := List.all_eq_true.1 (by decide)
  exact ⟨⟨hscript, (ofText_indented_anew _).1 .tsx _ rfl hscript⟩,
    ⟨hsteady, ((ofText_indented_anew _).2.1 _ (by decide +kernel)).2 hsteady⟩,
    ⟨hgaps, (ofText_indented_anew _).2.2 _ hgaps⟩⟩

/-- The exception: a method is found only if the brace behind its `throws` is indented. -/
theorem ofText_brace_behind_throws :
    Text.Reindented "void f(int a) throws\n\x7b".toList "void f(int a) throws\n \x7b".toList ∧
    (ofText .java "void f(int a) throws\n\x7b".toList).parameterCount = 0 ∧
    (ofText .java "void f(int a) throws\n \x7b".toList).parameterCount = 1 := by
  decide +kernel

end Complexity

end CodeSurvey
