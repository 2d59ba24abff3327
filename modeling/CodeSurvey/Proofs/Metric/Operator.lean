import Mathlib.Data.List.SplitBy
import CodeSurvey.Metric.Cognitive
import CodeSurvey.Proofs.Pattern.Words

/-!
# Logical operators

Cyclomatic complexity looks for both logical operators at once, in the whole text. Cognitive complexity looks for each
of them alone, line by line, and puts what it finds in order. Both find the same operators: the two share no character,
so that neither hides the other, and nothing that is cut off a line is part of one.

* `Language.operators`: the two operators of a language, as they are written.
* `operators_eq`: the operators of a line in order are those that one search finds.
* `operatorRuns_eq`: the runs that are counted are the maximal runs of equal operators.
* `count_logical_lines`: the operators of a text are those of its lines.
-/

namespace CodeSurvey

open Pattern

/-- The conjunction of a language, as it is written. -/
def Language.conjunction (language : Language) : Text :=
  if language.usesBraces then "&&".toList else "and".toList

/-- The disjunction of a language, as it is written. -/
def Language.disjunction (language : Language) : Text :=
  if language.usesBraces then "||".toList else "or".toList

/-- The logical operators of a language, as they are written. -/
def Language.operators (language : Language) : List Text :=
  [language.conjunction, language.disjunction]

namespace Cognitive

variable {language : Language} {x : Text} {m : Match}

/-! ## The patterns -/

/-- **The operators are read wherever they stand**, as whole words where they are words. -/
theorem reads_operators (language : Language) :
    Reads (!language.usesBraces) language.grammar.decisions.logical language.operators ∧
      Reads (!language.usesBraces) language.grammar.decisions.conjunction [language.conjunction] ∧
      Reads (!language.usesBraces) language.grammar.decisions.disjunction [language.disjunction] := by
  have hbraces : Reads false (words ["&&", "||"]) ["&&".toList, "||".toList] ∧
      Reads false (words ["&&"]) ["&&".toList] ∧ Reads false (words ["||"]) ["||".toList] :=
    ⟨reads_words (by simp), reads_words (by simp), reads_words (by simp)⟩
  cases language
  case python =>
    have hwords : ∀ w ∈ ["and", "or"], w.toList ≠ [] ∧ w.toList.all Text.isWord = true := by decide
    have hread : ∀ ws : List String, ws ≠ [] → ws ⊆ ["and", "or"] →
        Reads true (keywords ws) (ws.map String.toList) := by
      intro ws hne hsub
      refine reads_keywords hne fun w hw => ?_
      obtain ⟨hnonempty, hall⟩ := hwords w (hsub hw)
      exact ⟨hnonempty, List.all_eq_true.1 hall⟩
    exact ⟨hread ["and", "or"] (by simp) (by simp), hread ["and"] (by simp) (by simp), hread ["or"] (by simp) (by simp)⟩
  all_goals exact hbraces

/-- Neither operator holds the first character of the other. -/
theorem separate_operators (language : Language) : Separate language.operators := by
  have hne : ∀ x ∈ language.operators, x ≠ [] := by
    cases language <;> decide
  have hhead : ∀ x ∈ language.operators, ∀ y ∈ language.operators, x ≠ y →
      x.head?.all (fun ch => !y.contains ch) = true := by
    cases language <;> decide
  refine ⟨hne, ?_⟩
  intro x hx y hy hxy ch hch hmem
  have hno := hhead x hx y hy hxy
  rw [Option.mem_def.1 hch, Option.all_some, List.contains_iff_mem.2 hmem] at hno
  cases hno

theorem minWidth_logical (language : Language) : 0 < language.grammar.decisions.logical.minWidth := by
  cases language <;> decide

/-- No blank and no brace is part of an operator. -/
theorem neutral_blank (language : Language) {ch : Char} (h : Text.isBlank ch = true) :
    Neutral language.operators ch := by
  have hsolid : ∀ y ∈ language.operators, y.all (!Text.isBlank ·) = true := by
    cases language <;> decide
  refine ⟨Text.isWord_of_isBlank h, ?_⟩
  intro y hy hmem
  have hno := List.all_eq_true.1 (hsolid y hy) ch hmem
  rw [h] at hno
  cases hno

theorem neutral_closer (language : Language) : Neutral language.operators '}' := by
  cases language <;> exact ⟨by decide, by decide⟩

/-! ## One search and two -/

/-- The order in which the operators of a line are put: by place. -/
def placedBefore (a b : Nat × Bool) : Bool :=
  a.1 < b.1 || (a.1 == b.1 && (a.2 || !b.2))

theorem placedBefore_iff {a b : Nat × Bool} :
    placedBefore a b = true ↔ a.1 < b.1 ∨ a.1 = b.1 ∧ (a.2 = true ∨ b.2 = false) := by
  simp [placedBefore]

/-- What is in order already is what putting it in order gives. -/
theorem mergeSort_placedBefore {l l' : List (Nat × Bool)} (hperm : l.Perm l')
    (hsorted : l'.Pairwise fun a b => placedBefore a b = true) : l.mergeSort placedBefore = l' := by
  refine List.Perm.eq_of_pairwise ?_ (List.pairwise_mergeSort ?_ ?_ l) hsorted ((List.mergeSort_perm _ _).trans hperm)
  · rintro ⟨i, a⟩ ⟨j, b⟩ _ _ hab hba
    rw [placedBefore_iff] at hab hba
    cases a <;> cases b <;> simp_all <;> omega
  · rintro ⟨i, a⟩ ⟨j, b⟩ ⟨k, c⟩ hab hbc
    rw [placedBefore_iff] at hab hbc ⊢
    cases a <;> cases b <;> cases c <;> simp_all <;> omega
  · rintro ⟨i, a⟩ ⟨j, b⟩
    rw [Bool.or_eq_true, placedBefore_iff, placedBefore_iff]
    cases a <;> cases b <;> simp <;> omega

/-- What is found is the one operator exactly if it is not the other. -/
theorem disjunction_eq_not (hm : m ∈ language.grammar.decisions.logical.findAll x) :
    (m.text == language.disjunction) = !(m.text == language.conjunction) := by
  have hne : language.conjunction ≠ language.disjunction := by
    cases language <;> decide
  have htext := text_mem_of_mem_findAll (reads_operators language).1 hm
  rw [Language.operators, List.mem_cons, List.mem_singleton] at htext
  rcases htext with htext | htext
  · simp [htext, hne]
  · simp [htext, hne.symm]

/-- What the search for one operator finds, among what the search for both finds. -/
theorem findAll_operator {p : Pattern} {y : Text} (hp : Reads (!language.usesBraces) p [y])
    (hy : y ∈ language.operators) (x : Text) : (p.findAll x).map (·.first) =
      ((language.grammar.decisions.logical.findAll x).filter (·.text == y)).map (·.first) := by
  have hplaces := (narrows_reads (reads_operators language).1 hp (separate_operators language) hy x.length).findAll
    (minWidth_logical language)
  have hfirsts := congrArg (List.map Prod.fst) hplaces
  simpa only [List.map_map, Function.comp_def, Match.places] using hfirsts.symm

/-- What one search finds is in order already. -/
theorem findAll_placedBefore {p : Pattern} (hwidth : 0 < p.minWidth) (x : Text) (kind : Match → Bool) :
    ((p.findAll x).map fun m => (m.first, kind m)).Pairwise fun a b => placedBefore a b = true := by
  rw [List.pairwise_map]
  refine (findAll_pairwise p x).imp_of_mem ?_
  intro a b ha _ hab
  have hwide := (findAll_fits ha).width_le
  rw [placedBefore_iff]
  simp only
  omega

/-- **Two searches find what one search finds**: the operators of a line in order are the matches of the pattern for
both of them. -/
theorem operators_eq (language : Language) (x : Text) : operators language.grammar.decisions x =
    (language.grammar.decisions.logical.findAll x).map fun m => (m.first, m.text == language.conjunction) := by
  obtain ⟨-, hconj, hdisj⟩ := reads_operators language
  have hconj := congrArg (List.map fun i => (i, true)) (findAll_operator hconj (by simp [Language.operators]) x)
  have hdisj := congrArg (List.map fun i => (i, false)) (findAll_operator hdisj (by simp [Language.operators]) x)
  simp only [List.map_map, Function.comp_def] at hconj hdisj
  have hmerged : (language.grammar.decisions.conjunction.findAll x).map (fun m => (m.first, true))
        ++ (language.grammar.decisions.disjunction.findAll x).map (fun m => (m.first, false))
      = ((language.grammar.decisions.logical.findAll x).filter (·.text == language.conjunction)
        ++ (language.grammar.decisions.logical.findAll x).filter fun m => !(m.text == language.conjunction)).map
          fun m => (m.first, m.text == language.conjunction) := by
    rw [hconj, hdisj, List.filter_congr fun m hm => disjunction_eq_not hm, List.map_append]
    congr 1
    · apply List.map_congr_left
      intro m hm
      rw [(List.mem_filter.1 hm).2]
    · apply List.map_congr_left
      intro m hm
      have hother := (List.mem_filter.1 hm).2
      rw [Bool.not_eq_true'] at hother
      rw [hother]
  have hperm := (List.filter_append_perm (·.text == language.conjunction)
    (language.grammar.decisions.logical.findAll x)).map fun m => (m.first, m.text == language.conjunction)
  show List.mergeSort _ placedBefore = _
  rw [hmerged]
  exact mergeSort_placedBefore hperm (findAll_placedBefore (minWidth_logical language) x _)

/-! ## Runs -/

theorem length_splitBy_loop {α : Type} (r : α → α → Bool) (l : List α) : ∀ (a : α) (g : List α) (gs : List (List α)),
    (List.splitBy.loop r l a g gs).length = (List.splitBy.loop r l a [] []).length + gs.length := by
  induction l with
  | nil =>
    intro a g gs
    simp [List.splitBy.loop]
    omega
  | cons b l ih =>
    intro a g gs
    rw [List.splitBy.loop, List.splitBy.loop]
    cases r a b with
    | true => simp only [ih b (a :: g) gs, ih b [a] []]; simp
    | false => simp only [ih b [] (_ :: gs), ih b [] [_]]; simp; omega

/-- A value starts a run of its own unless it goes on with the next one. -/
theorem length_splitBy_cons_cons {α : Type} (r : α → α → Bool) (a b : α) (l : List α) :
    ((a :: b :: l).splitBy r).length = (if r a b = true then 0 else 1) + ((b :: l).splitBy r).length := by
  rw [List.splitBy, List.splitBy, List.splitBy.loop]
  cases r a b with
  | true => simp [length_splitBy_loop r l b [a] []]
  | false => simp [length_splitBy_loop r l b [] [_]]; omega

/-- **The runs of a list are its maximal runs of equal values**, however the values are told apart. -/
theorem runCount_map {α β : Type} [BEq β] {f : α → Bool} {g : α → β} {l : List α}
    (h : ∀ a ∈ l, ∀ b ∈ l, (f a == f b) = (g a == g b)) :
    runCount (l.map f) = ((l.map g).splitBy (· == ·)).length := by
  match l with
  | [] => rfl
  | [a] => rfl
  | a :: b :: l =>
    have hrest := runCount_map (l := b :: l) fun a ha b hb =>
      h a (List.mem_cons_of_mem _ ha) b (List.mem_cons_of_mem _ hb)
    have hab := h a List.mem_cons_self b (List.mem_cons_of_mem _ List.mem_cons_self)
    rw [List.map_cons, List.map_cons] at hrest ⊢
    rw [List.map_cons, List.map_cons, runCount, length_splitBy_cons_cons, hrest, hab]

theorem runCount_le_length (l : List Bool) : runCount l ≤ l.length := by
  fun_induction runCount l with
  | case1 => exact Nat.le_refl _
  | case2 a => exact Nat.le_refl _
  | case3 a b rest ih =>
    rw [List.length_cons]
    split <;> omega

/-- **The runs that are counted on a line are the maximal runs of equal operators**, in the order in which the operators
stand. -/
theorem operatorRuns_eq (language : Language) (x : Text) : operatorRuns language.grammar.decisions x =
    (((language.grammar.decisions.logical.findAll x).map Match.text).splitBy (· == ·)).length := by
  rw [operatorRuns, operators_eq, List.map_map]
  apply runCount_map
  intro a ha b hb
  have hne : language.conjunction ≠ language.disjunction := by
    cases language <;> decide
  have ha := text_mem_of_mem_findAll (reads_operators language).1 ha
  have hb := text_mem_of_mem_findAll (reads_operators language).1 hb
  rw [Language.operators, List.mem_cons, List.mem_singleton] at ha hb
  rcases ha with ha | ha <;> rcases hb with hb | hb <;> simp [ha, hb, hne, hne.symm]

/-- There are no more runs than operators. -/
theorem operatorRuns_le (language : Language) (x : Text) :
    operatorRuns language.grammar.decisions x ≤ language.grammar.decisions.logical.count x := by
  have hle := runCount_le_length ((operators language.grammar.decisions x).map Prod.snd)
  rwa [List.length_map, operators_eq, List.length_map, ← operators_eq] at hle

/-! ## Lines -/

/-- **The operators of a text are those of its lines.** -/
theorem count_logical_lines (language : Language) (t : Text) : language.grammar.decisions.logical.count t
    = ((Text.lines t).map language.grammar.decisions.logical.count).sum :=
  count_lines (reads_operators language).1 (separate_operators language).unambiguous (minWidth_logical language)
    (neutral_blank language (by decide)) t

theorem count_logical_trim (language : Language) (t : Text) :
    language.grammar.decisions.logical.count (Text.trim t) = language.grammar.decisions.logical.count t :=
  count_trim (reads_operators language).1 (separate_operators language).unambiguous (minWidth_logical language)
    (fun _ => neutral_blank language) t

theorem count_logical_withoutClosers (language : Language) (t : Text) :
    language.grammar.decisions.logical.count (withoutClosers t) = language.grammar.decisions.logical.count t := by
  refine count_dropWhile (reads_operators language).1 (separate_operators language).unambiguous
    (minWidth_logical language) ?_ t
  intro ch hch
  simp only [Bool.or_eq_true, beq_iff_eq] at hch
  rcases hch with (rfl | rfl) | rfl
  · exact neutral_closer language
  · exact neutral_blank language (by decide)
  · exact neutral_blank language (by decide)

end Cognitive

end CodeSurvey
