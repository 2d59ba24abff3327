import CodeSurvey.Metric.Complexity
import CodeSurvey.Proofs.RoundTrip.Indented
import CodeSurvey.Proofs.RoundTrip.Scripted
import CodeSurvey.Proofs.Source.Method
import CodeSurvey.Proofs.Source.Placement

/-!
# A function in its text and on its own

The metrics of a function are taken from its own text, but for the number of its parameters: that is
known from the scan of the whole text. A function on its own has its signature read once more, from
where it was cut out to the end of its block. The two numbers agree, as the signature is the first
thing that is found in the cut.

* `Scripted.first_excerpt`, `Indented.first_excerpt`: the languages without modifiers.
* `Language.first_excerpt`: in every language, a signature is read in the cut as in the text.
* `Routine.parameterCountOf_text`: so the number of parameters is the same.
* `RoutineComplexity.ofText_eq_alone`: and so are all metrics.
-/

namespace CodeSurvey

open Pattern

variable {limit limit' first last : Nat} {r s : Reading}

/-! ## The scripting dialects -/

namespace Scripted

open Grammar.Scripted

/-- The words that declare a variable. -/
def declaringWords : List String :=
  ["const", "let", "var"]

theorem chars_of_declaringWord {w : Text} (h : (words declaringWords).Spelled w) :
    ∃ c rest, w = c :: rest ∧ isNameStart c = true ∧ ∀ d ∈ rest, isNameStart d = true :=
  exists_of_areWords (by decide) (by decide) h

/-- Inside a word no variable is declared. -/
theorem declarator_eq_nil (hword : r.cursor.lastIs Text.isWord = true) :
    declarator.outcomes limit r = [] := by
  have hedge : (edge ++ words declaringWords).outcomes limit r = [] := by
    refine edge_eq_nil (fun x hx => ?_) hword
    obtain ⟨c, rest, rfl, hc, -⟩ := chars_of_declaringWord hx
    exact ⟨c, rest, rfl, isWord_of_isNameStart hc⟩
  show ((edge ++ words declaringWords) ++ someBlanks).outcomes limit r = []
  rw [outcomes_append, hedge]
  rfl

/-- A text that starts with a declaring word and a name. -/
def Binds (x : Text) : Prop :=
  ∃ w b nm y, (words declaringWords).Spelled w ∧ someBlanks.Spelled b ∧ scriptName.Spelled nm ∧
    x = w ++ (b ++ (nm ++ y))

/-- A text that starts with a name and the sign that assigns to it. -/
def Assigns (x : Text) : Prop :=
  ∃ nm b y, scriptName.Spelled nm ∧ (∀ c ∈ b, Text.isBlank c = true) ∧ x = nm ++ (b ++ '=' :: y)

theorem binds_of_spelled {label : Label} {p : Pattern} {x : Text} (y : Text)
    (hx : (edge ++ (words declaringWords ++ (someBlanks ++ (group label scriptName ++ p)))).Spelled
      x) : Binds (x ++ y) := by
  obtain ⟨_, _, rfl, ⟨w, _, hw, ⟨b, _, hb, ⟨nm, z, hnm, -, rfl⟩, rfl⟩, rfl⟩, rfl⟩ := hx
  exact ⟨w, b, nm, z ++ y, hw, hb, hnm, by simp⟩

theorem binds_of_arrowFunction (h : s ∈ arrowFunction.outcomes limit r) :
    Binds r.cursor.after := by
  obtain ⟨x, hx, hafter⟩ := exists_spelled _ _ _ h
  simp only [arrowFunction, declarator, spelled_append_assoc] at hx
  rw [hafter]
  exact binds_of_spelled _ hx

theorem binds_of_bareArrowFunction (h : s ∈ bareArrowFunction.outcomes limit r) :
    Binds r.cursor.after := by
  obtain ⟨x, hx, hafter⟩ := exists_spelled _ _ _ h
  simp only [bareArrowFunction, declarator, spelled_append_assoc] at hx
  rw [hafter]
  exact binds_of_spelled _ hx

theorem assigns_of_assignedFunction (h : s ∈ assignedFunction.outcomes limit r) :
    Assigns r.cursor.after := by
  obtain ⟨x, hx, hafter⟩ := exists_spelled _ _ _ h
  simp only [assignedFunction, spelled_append_assoc] at hx
  obtain ⟨nm, _, hnm, ⟨b, _, hb, ⟨_, y, rfl, -, rfl⟩, rfl⟩, rfl⟩ := hx
  exact ⟨nm, b, y ++ s.cursor.after, hnm, hb, by simpa using hafter⟩

theorem scriptName_chars {nm : Text} (h : scriptName.Spelled nm) :
    ∃ c rest, nm = c :: rest ∧ isScriptNameStart c = true ∧
      ∀ d ∈ nm, isScriptNameRest d = true := by
  obtain ⟨_, rest, ⟨c, hc, rfl⟩, hrest, rfl⟩ := h
  refine ⟨c, rest, rfl, hc, fun d hd => ?_⟩
  rcases List.mem_cons.1 hd with rfl | hd
  · exact isScriptNameRest_of_start hc
  · exact hrest d hd

/-- A declaring word with a name behind it is not assigned to. -/
theorem Binds.not_assigns {x : Text} (h : Binds x) : ¬ Assigns x := by
  rintro ⟨nm', b', y', hnm', hb', heq⟩
  obtain ⟨w, b, nm, y, hw, hb, hnm, rfl⟩ := h
  obtain ⟨_, rest, ⟨c, hc, rfl⟩, hrest, rfl⟩ := hb
  obtain ⟨d, nm, rfl, hd, -⟩ := scriptName_chars hnm
  obtain ⟨-, -, -, -, hall'⟩ := scriptName_chars hnm'
  have hblank : ∀ e, Text.isBlank e = true → isScriptNameRest e = false := by
    intro e he
    by_contra hname
    simp [(nameChar_spec (by simpa using hname)).1] at he
  have hw' : ∀ e ∈ w, isScriptNameRest e = true := by
    obtain ⟨f, rest', rfl, hf, hrest'⟩ := chars_of_declaringWord hw
    intro e he
    have hname : isNameStart e = true := by
      rcases List.mem_cons.1 he with rfl | he
      · exact hf
      · exact hrest' e he
    exact isScriptNameRest_of_start (by simp [isScriptNameStart, hname])
  -- the word is the name assigned to
  have hbehind : ∀ e ∈ (b' ++ '=' :: y').head?, isScriptNameRest e = false := by
    cases b' with
    | nil => simpa using (by decide : isScriptNameRest '=' = false)
    | cons e b' => simpa using hblank e (hb' e List.mem_cons_self)
  obtain ⟨-, hrest'⟩ := Text.eq_of_append_eq heq hw' hall'
    (by simpa using hblank c hc) hbehind
  -- and behind the blanks there is a name and the sign
  have hblanks : ∀ e ∈ [c] ++ rest, Text.isBlank e = true := by
    intro e he
    rcases List.mem_cons.1 he with rfl | he
    · exact hc
    · exact hrest e he
  have hstart := (nameChar_spec (isScriptNameRest_of_start hd)).1
  obtain ⟨-, hsign⟩ := Text.eq_of_append_eq hrest' hblanks hb' (by simpa using hstart)
    (by simpa using (by decide : Text.isBlank '=' = false))
  obtain ⟨rfl, -⟩ := List.cons.inj hsign
  exact absurd hd (by decide)

/-- The forms that no word declares a variable for. -/
def unbound : Pattern :=
  declaredFunction <|> assignedFunction

theorem outcomes_unbound (limit : Nat) (r : Reading) : unbound.outcomes limit r
    = declaredFunction.outcomes limit r ++ assignedFunction.outcomes limit r := rfl

theorem outcomes_function (limit : Nat) (r : Reading) : function.outcomes limit r
    = declaredFunction.outcomes limit r ++ (arrowFunction.outcomes limit r
      ++ (bareArrowFunction.outcomes limit r ++ assignedFunction.outcomes limit r)) := rfl

/-- **A function that is cut out is read as in its text**, whatever stands in front of it. -/
theorem first_excerpt (h : First limit function r s) (hr : Inside first last limit limit' r)
    (hs : s.cursor.place ≤ last) :
    First limit' function (r.excerpt first last) (s.excerpt first last) := by
  by_cases hword : r.cursor.lastIs Text.isWord = true
  · -- the cut runs through a word, which may declare a variable now and did not before
    have harrow : arrowFunction.outcomes limit r = [] := by
      simp [arrowFunction, outcomes_append, declarator_eq_nil hword]
    have hbare : bareArrowFunction.outcomes limit r = [] := by
      simp [bareArrowFunction, outcomes_append, declarator_eq_nil hword]
    have hunbound : First limit unbound r s := by
      unfold First at h ⊢
      rw [outcomes_function, harrow, hbare, List.nil_append, List.nil_append,
        ← outcomes_unbound] at h
      exact h
    have hopens : OpensAlike first unbound r.cursor :=
      ⟨fun ht => absurd ht (by decide), fun ht => absurd ht (by decide)⟩
    have hcut := hunbound.excerpt hr (by decide) hopens hs
    unfold First at hcut ⊢
    rw [outcomes_unbound] at hcut
    rw [outcomes_function]
    cases hdeclared : declaredFunction.outcomes limit' (r.excerpt first last) with
    | cons u l =>
      rw [hdeclared, List.cons_append, List.head?_cons] at hcut
      rw [List.cons_append, List.head?_cons]
      exact hcut
    | nil =>
      rw [hdeclared, List.nil_append] at hcut
      have hassigns := assigns_of_assignedFunction (List.mem_of_mem_head? hcut)
      have harrow' : arrowFunction.outcomes limit' (r.excerpt first last) = [] :=
        List.eq_nil_iff_forall_not_mem.2 fun u hu =>
          (binds_of_arrowFunction hu).not_assigns hassigns
      have hbare' : bareArrowFunction.outcomes limit' (r.excerpt first last) = [] :=
        List.eq_nil_iff_forall_not_mem.2 fun u hu =>
          (binds_of_bareArrowFunction hu).not_assigns hassigns
      rw [harrow', hbare', List.nil_append, List.nil_append, List.nil_append]
      exact hcut
  · have hopens : OpensAlike first function r.cursor :=
      ⟨fun _ _ => by simpa using hword, fun ht => absurd ht (by decide)⟩
    exact h.excerpt hr (by decide) hopens hs

end Scripted

/-! ## The language told by indentation -/

/-- **A function that is cut out is read as in its text**: it starts a line in both. -/
theorem Indented.first_excerpt {c : Cursor} (h : First limit Grammar.Indented.function ⟨c, []⟩ s)
    (hr : Inside first last limit limit' ⟨c, []⟩) (hs : s.cursor.place ≤ last) :
    First limit' Grammar.Indented.function (Reading.excerpt first last ⟨c, []⟩)
      (s.excerpt first last) := by
  have hstart : c.atLineStart = true := by
    by_contra hnot
    have hnone : Grammar.Indented.function.readAt? limit c = none :=
      readAt?_of_not_start (by simpa using hnot)
    rw [readAt?_of_first h] at hnone
    simp at hnone
  exact h.excerpt hr (by decide) ⟨fun ht => absurd ht (by decide), fun _ _ => hstart⟩ hs

/-! ## Every language -/

variable {language : Language} {t : Text} {m : Match}

/-- **The signature of a function is read in its cut as in its text.** -/
theorem Language.first_excerpt (hm : m ∈ language.grammar.function.findAll t) :
    let last := (language.block t m.first m.last).stop
    First (Text.slice t m.first last).length language.grammar.function
      (Reading.excerpt m.first last ⟨m.start, []⟩)
      (Reading.excerpt m.first last ⟨m.stop, m.captures⟩) := by
  intro last
  have hfits := findAll_fits hm
  have hfirst : First t.length language.grammar.function ⟨m.start, []⟩ ⟨m.stop, m.captures⟩ :=
    first_of_mem_readings _ _ hm
  have hwithin := language.block_within m.first hfits.last_le
  have hwidth := hfits.width_le
  have hlast : m.last ≤ last := hwithin.place_le_stop
  have hr : Inside m.first last t.length (Text.slice t m.first last).length ⟨m.start, []⟩ := by
    refine ⟨Nat.le_refl _, ?_, ?_, ?_⟩
    · show m.first ≤ last
      omega
    · show m.start.after.length ≤ t.length
      rw [hfits.start_eq, Cursor.ofPlace_after, List.length_drop]
      omega
    · rw [Text.length_slice hwithin.stop_le]
      exact Nat.le_refl _
  have hstop : m.stop.after = t.drop m.last := by
    conv_lhs => rw [hfits.stop_eq]
    rfl
  cases language with
  | javascript | typescript | jsx | tsx => exact Scripted.first_excerpt hfirst hr hlast
  | python => exact Indented.first_excerpt hfirst hr hlast
  | java =>
    have hmethod : First t.length (Typed.method _ _ _) ⟨m.start, []⟩ ⟨m.stop, m.captures⟩ :=
      (congrArg List.head? (Typed.outcomes_javaFunction _ _)).symm.trans hfirst
    have hseen := Typed.javaShape.exists_seen hmethod hstop m.first
    exact (congrArg List.head? (Typed.outcomes_javaFunction _ _)).trans
      (Typed.javaShape.first_excerpt hmethod hr hseen)
  | csharp =>
    have hmethod : First t.length (Typed.method _ _ _) ⟨m.start, []⟩ ⟨m.stop, m.captures⟩ :=
      (congrArg List.head? (Typed.outcomes_csharpFunction _ _)).symm.trans hfirst
    have hseen := Typed.csharpShape.exists_seen hmethod hstop m.first
    exact (congrArg List.head? (Typed.outcomes_csharpFunction _ _)).trans
      (Typed.csharpShape.first_excerpt hmethod hr hseen)

/-- The first match in the cut of a function is its signature. -/
theorem Language.signature_cut (hm : m ∈ language.grammar.function.findAll t) :
    ∃ m' rest, language.grammar.function.findAll
        (Text.slice t m.first (language.block t m.first m.last).stop) = m' :: rest ∧
      m'.signature? = m.signature? := by
  have hfits := findAll_fits hm
  have hwithin := language.block_within m.first hfits.last_le
  have hfirst := Language.first_excerpt hm
  have hwidth := hfits.width_le
  have hle := hwithin.place_le_stop
  have hstart : m.start.excerpt m.first (language.block t m.first m.last).stop
      = Cursor.ofPlace (Text.slice t m.first (language.block t m.first m.last).stop) 0 := by
    conv_lhs => rw [hfits.start_eq]
    exact Cursor.excerpt_ofPlace (by omega) hwithin.stop_le
  simp only [Reading.excerpt, hstart, List.map_nil] at hfirst
  obtain ⟨rest, hrest⟩ := findAll_of_first hfirst language.grammar_positive.function
  refine ⟨_, rest, hrest, ?_⟩
  rw [← hstart]
  have hgroup := Match.group?_excerpt hfits (Nat.le_refl m.first) hle
  unfold Match.signature?
  unfold Match.excerpt at hgroup
  rw [hgroup, hgroup, hgroup]

/-- **A function on its own has as many parameters as in its text.** -/
theorem Routine.parameterCountOf_text {r : Routine} (hr : r ∈ Routine.scan language t) :
    Complexity.parameterCountOf language (r.text t) = r.params.length := by
  obtain ⟨m, hm, hmr⟩ := List.mem_filterMap.1 hr
  obtain ⟨signature, hsignature, rfl⟩ := Option.map_eq_some_iff.1 hmr
  obtain ⟨m', rest, hfound, hsame⟩ := Language.signature_cut hm
  show Complexity.parameterCountOf language
      (Text.slice t m.first (language.block t m.first m.last).stop)
    = (Param.parseAll language signature.params).length
  rw [Complexity.parameterCountOf, hfound, List.filterMap_cons, hsame, hsignature]
  rfl

/-- **A function analysed in place is the function analysed on its own**: for every text and every
language, the functions are listed in order, each with all the metrics that its own text gives. -/
theorem RoutineComplexity.ofText_eq_alone (language : Language) (t : Text) :
    RoutineComplexity.ofText language t
      = (Routine.scan language t).map fun r => ⟨r, Complexity.ofText language (r.text t)⟩ := by
  unfold RoutineComplexity.ofText
  refine List.map_congr_left fun r hr => ?_
  rw [RoutineComplexity.ofRoutine, Complexity.ofText, Routine.parameterCountOf_text hr]

-- the cut makes a modifier of the type, and the parameters are still found
example : (Routine.scan .java "1static f(a, b) { }".toList).map
    (fun r => (String.ofList (r.text "1static f(a, b) { }".toList),
      Complexity.parameterCountOf .java (r.text "1static f(a, b) { }".toList)))
      = [("static f(a, b) { }", 2)] := by decide +kernel

end CodeSurvey
