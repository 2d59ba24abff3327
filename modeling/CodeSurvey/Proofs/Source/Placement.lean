import CodeSurvey.Proofs.Pattern.Search
import CodeSurvey.Proofs.Source.Block
import CodeSurvey.Report

/-!
# Every scan is well formed

Whatever the text, the places of a routine are in order and in the text, routines follow one
another, and elements are where they say they are. The elements of a scan are those of one kind
after those of another, in the order in which the summary lists the kinds; so it lists each of them
once.

* `Grammar.Positive`: every pattern that a grammar looks for takes a character.
* `Routine.WellPlaced`: the places and lines of a routine are in order.
* `Listing`: elements of one kind, each in its place, in the order of the text.
* `elements_eq_flatMap`, `ofKind_eq`: a scan is made of one listing for each kind.
* `scan_wellPlaced`: the facts together.
-/

namespace CodeSurvey

/-- Every pattern that a grammar looks for takes at least one character, and so does the name of a
variable. -/
structure Grammar.Positive (g : Grammar) : Prop where
  function : 0 < g.function.minWidth
  classDecl : 0 < g.classDecl.minWidth
  loop : 0 < g.loop.minWidth
  conditional : 0 < g.conditional.minWidth
  variableDecl : 0 < g.variableDecl.minWidth
  variableName : ∀ x ∈ g.variableDecl.groups, x.1.role = "name" → 0 < x.2.minWidth
  types : ∀ h ∈ g.types, 0 < h.interface.minWidth ∧ 0 < h.typeAlias.minWidth
  markup : ∀ h ∈ g.markup,
    0 < h.component.minWidth ∧ 0 < h.hook.minWidth ∧ 0 < h.element.minWidth

theorem Language.grammar_positive (language : Language) : language.grammar.Positive := by
  have htypes : 0 < Grammar.Scripted.types.interface.minWidth ∧
      0 < Grammar.Scripted.types.typeAlias.minWidth := by decide
  have hmarkup : 0 < Grammar.Scripted.markup.component.minWidth ∧
      0 < Grammar.Scripted.markup.hook.minWidth ∧
      0 < Grammar.Scripted.markup.element.minWidth := by decide
  -- the dialects with types or markup are left over
  cases language <;>
    refine ⟨by decide, by decide, by decide, by decide, by decide, by decide, ?_, ?_⟩ <;>
    rintro h ⟨⟩
  · exact htypes
  · exact hmarkup
  · exact htypes
  · exact hmarkup

/-! ## Routines -/

/-- **The places and lines of a routine are in order**, and its lines are those of its text, where
a line end at the very end does not count. -/
structure Routine.WellPlaced (r : Routine) (t : Text) : Prop where
  offset_lt : r.offset < r.signatureEnd
  signatureEnd_le : r.signatureEnd ≤ r.block.bodyStart
  bodyStart_le : r.block.bodyStart ≤ r.block.bodyEnd
  bodyEnd_le : r.block.bodyEnd ≤ r.block.stop
  stop_le : r.block.stop ≤ t.length
  startLine_pos : 1 ≤ r.startLine
  startLine_le : r.startLine ≤ r.endLine
  endLine_le : r.endLine ≤ (Text.lines t).length
  lineCount_eq : r.lineCount = 1 + (r.text t).dropLast.count '\n'

variable {language : Language} {t : Text} {m : Match} {r : Routine}

theorem Routine.ofMatch?_places (h : ofMatch? language t m = some r) :
    r.offset = m.first ∧ r.signatureEnd = m.last ∧ r.block = language.block t m.first m.last ∧
      r.startLine = Text.lineNumber t m.first ∧
      r.endLine = Text.lineNumber t (max m.first (r.block.stop - 1)) := by
  unfold ofMatch? at h
  obtain ⟨s, -, rfl⟩ := Option.map_eq_some_iff.1 h
  exact ⟨rfl, rfl, rfl, rfl, rfl⟩

theorem Routine.ofMatch?_wellPlaced (hm : m.Fits language.grammar.function t)
    (h : ofMatch? language t m = some r) : r.WellPlaced t := by
  obtain ⟨hoffset, hend, hblock, hstart, hstop⟩ := ofMatch?_places h
  have hlt : m.first < m.last := by
    have := language.grammar_positive.function
    have := hm.width_le
    omega
  have hwithin := language.block_within m.first hm.last_le
  rw [← hblock] at hwithin
  obtain ⟨h1, h2, h3, h4⟩ := hwithin
  have hmax : max m.first (r.block.stop - 1) = r.block.stop - 1 := by omega
  rw [hmax] at hstop
  have hlines : Text.lineNumber t m.first ≤ Text.lineNumber t (r.block.stop - 1) :=
    Text.lineNumber_mono (by omega)
  refine ⟨by omega, by omega, h2, h3, h4, ?_, ?_, ?_, ?_⟩
  · rw [hstart]; exact Text.lineNumber_pos _ _
  · rw [hstart, hstop]; exact hlines
  · rw [hstop]; exact Text.lineNumber_le_length _ _
  · unfold lineCount text
    rw [Text.slice_dropLast h4, hoffset, hstart, hstop,
      Text.lineNumber_add (i := m.first) (j := r.block.stop - 1) (by omega)]
    omega

/-- A routine of a scan comes from a match that fits. -/
theorem Routine.mem_scan (h : r ∈ scan language t) :
    ∃ m, m.Fits language.grammar.function t ∧ ofMatch? language t m = some r := by
  obtain ⟨m, hm, hr⟩ := List.mem_filterMap.1 h
  exact ⟨m, Pattern.findAll_fits hm, hr⟩

/-- Routines follow one another: a signature starts where the one before has ended, or later. -/
theorem Routine.scan_pairwise (language : Language) (t : Text) :
    (scan language t).Pairwise fun a b => a.signatureEnd ≤ b.offset := by
  unfold scan
  rw [List.pairwise_filterMap]
  refine (Pattern.findAll_pairwise _ t).imp fun {a b} hab ra hra rb hrb => ?_
  rw [(ofMatch?_places hra).2.1, (ofMatch?_places hrb).1]
  exact hab

/-! ## Elements -/

/-- Elements of one kind, each in its place, in the order of the text. -/
structure Listing (kind : ElementKind) (t : Text) (l : List Element) : Prop where
  kind_eq : ∀ e ∈ l, e.kind = kind
  offset_lt : ∀ e ∈ l, e.offset < t.length
  line_eq : ∀ e ∈ l, e.line = 1 + (t.take e.offset).count '\n'
  increasing : l.Pairwise fun a b => a.offset < b.offset

namespace Listing

variable {kind : ElementKind}

theorem nil : Listing kind t [] :=
  ⟨by simp, by simp, by simp, by simp⟩

theorem lineNumber_eq (t : Text) (i : Nat) : Text.lineNumber t i = 1 + (t.take i).count '\n' :=
  Nat.add_comm _ _

/-- One element for each match of a pattern that takes a character. -/
theorem findAll {p : Pattern} {f : Match → Element} (hp : 0 < p.minWidth)
    (hkind : ∀ m, (f m).kind = kind) (hoffset : ∀ m, (f m).offset = m.first)
    (hline : ∀ m, (f m).line = Text.lineNumber t m.first) :
    Listing kind t ((p.findAll t).map f) := by
  have hlt : ∀ m ∈ p.findAll t, m.first < m.last ∧ m.last ≤ t.length := by
    intro m hm
    have hfits := Pattern.findAll_fits hm
    have := hfits.width_le
    exact ⟨by omega, hfits.last_le⟩
  refine ⟨?_, ?_, ?_, ?_⟩
  · simp only [List.mem_map]
    rintro e ⟨m, -, rfl⟩
    exact hkind m
  · simp only [List.mem_map]
    rintro e ⟨m, hm, rfl⟩
    have := hlt m hm
    rw [hoffset]; omega
  · simp only [List.mem_map]
    rintro e ⟨m, -, rfl⟩
    rw [hline, hoffset, lineNumber_eq]
  · rw [List.pairwise_map]
    refine (Pattern.findAll_pairwise p t).imp_of_mem fun {a b} ha _ hab => ?_
    have := hlt a ha
    rw [hoffset, hoffset]; omega

/-- One element for each routine. -/
theorem routines (language : Language) (t : Text) :
    Listing .function t ((Routine.scan language t).map Element.ofRoutine) := by
  have hplaced : ∀ r ∈ Routine.scan language t, r.WellPlaced t ∧
      r.startLine = Text.lineNumber t r.offset := by
    intro r hr
    obtain ⟨m, hm, hmr⟩ := Routine.mem_scan hr
    obtain ⟨hoffset, -, -, hstart, -⟩ := Routine.ofMatch?_places hmr
    exact ⟨Routine.ofMatch?_wellPlaced hm hmr, by rw [hoffset, hstart]⟩
  refine ⟨?_, ?_, ?_, ?_⟩
  · simp only [List.mem_map]
    rintro e ⟨r, -, rfl⟩
    rfl
  · simp only [List.mem_map]
    rintro e ⟨r, hr, rfl⟩
    have := (hplaced r hr).1
    exact Nat.lt_of_lt_of_le this.offset_lt (Nat.le_trans this.signatureEnd_le
      (Nat.le_trans this.bodyStart_le (Nat.le_trans this.bodyEnd_le this.stop_le)))
  · simp only [List.mem_map]
    rintro e ⟨r, hr, rfl⟩
    rw [← lineNumber_eq]
    exact (hplaced r hr).2
  · rw [List.pairwise_map]
    refine (Routine.scan_pairwise language t).imp_of_mem fun {a b} ha _ hab => ?_
    exact Nat.lt_of_lt_of_le (hplaced a ha).1.offset_lt hab

/-- A variable stands at its name, which is inside its match. -/
theorem ofVariable?_spec {e : Element} (hm : m.Fits language.grammar.variableDecl t)
    (h : Element.ofVariable? t m = some e) : e.kind = .variableDecl ∧ m.first ≤ e.offset ∧
      e.offset < m.last ∧ e.line = Text.lineNumber t e.offset := by
  unfold Element.ofVariable? at h
  split at h
  · simp at h
  · rename_i c hc
    have hrole := List.find?_some hc
    obtain ⟨q, hq, -, -, hfirst, hwidth, hlast⟩ := hm.captures c (List.mem_of_find?_eq_some hc)
    have hpos := language.grammar_positive.variableName _ hq (by simpa using hrole)
    simp only at h hpos
    split at h
    · simp at h
    · split at h
      · simp at h
      · obtain rfl := Option.some.inj h
        exact ⟨rfl, hfirst, by simp only; omega, rfl⟩

/-- One element for each variable. -/
theorem variableDecls (language : Language) (t : Text) : Listing .variableDecl t
    ((language.grammar.variableDecl.findAll t).filterMap (Element.ofVariable? t)) := by
  refine ⟨?_, ?_, ?_, ?_⟩
  · intro e he
    obtain ⟨m, hm, hme⟩ := List.mem_filterMap.1 he
    exact (ofVariable?_spec (Pattern.findAll_fits hm) hme).1
  · intro e he
    obtain ⟨m, hm, hme⟩ := List.mem_filterMap.1 he
    have hfits := Pattern.findAll_fits hm
    exact Nat.lt_of_lt_of_le (ofVariable?_spec hfits hme).2.2.1 hfits.last_le
  · intro e he
    obtain ⟨m, hm, hme⟩ := List.mem_filterMap.1 he
    rw [← lineNumber_eq]
    exact (ofVariable?_spec (Pattern.findAll_fits hm) hme).2.2.2
  · rw [List.pairwise_filterMap]
    refine (Pattern.findAll_pairwise _ t).imp_of_mem fun {a b} ha hb hab ea hea eb heb => ?_
    have h1 := (ofVariable?_spec (Pattern.findAll_fits ha) hea).2.2.1
    have h2 := (ofVariable?_spec (Pattern.findAll_fits hb) heb).2.1
    omega

end Listing

namespace Scan

/-- The elements of one kind, as the grammar finds them. -/
def elementsOf (language : Language) (t : Text) : ElementKind → List Element
  | .function => (Routine.scan language t).map Element.ofRoutine
  | .classDecl => (language.grammar.classDecl.findAll t).map (Element.ofClass t .classDecl)
  | .loop => (language.grammar.loop.findAll t).map (Element.ofKind t .loop)
  | .conditional => (language.grammar.conditional.findAll t).map (Element.ofKind t .conditional)
  | .variableDecl =>
    (language.grammar.variableDecl.findAll t).filterMap (Element.ofVariable? t)
  | .interface => language.grammar.types.elim [] fun g =>
    (g.interface.findAll t).map (Element.ofClass t .interface)
  | .typeAlias => language.grammar.types.elim [] fun g =>
    (g.typeAlias.findAll t).map (Element.ofNamed t .typeAlias)
  | .component => language.grammar.markup.elim [] fun g =>
    (g.component.findAll t).map (Element.ofComponent g t)
  | .hook => language.grammar.markup.elim [] fun g =>
    (g.hook.findAll t).map (Element.ofNamed t .hook)
  | .markupElement => language.grammar.markup.elim [] fun g =>
    (g.element.findAll t).map (Element.ofNamed t .markupElement)

/-- Each kind is listed in its place and in order. -/
theorem elementsOf_listing (language : Language) (t : Text) (kind : ElementKind) :
    Listing kind t (elementsOf language t kind) := by
  have hpos := language.grammar_positive
  have hrefl : ∀ m : Match, m.first = m.first := fun _ => rfl
  cases kind with
  | function => exact Listing.routines language t
  | classDecl => exact Listing.findAll hpos.classDecl (fun _ => rfl) hrefl fun _ => rfl
  | loop => exact Listing.findAll hpos.loop (fun _ => rfl) hrefl fun _ => rfl
  | conditional => exact Listing.findAll hpos.conditional (fun _ => rfl) hrefl fun _ => rfl
  | variableDecl => exact Listing.variableDecls language t
  | interface =>
    simp only [elementsOf]
    cases h : language.grammar.types with
    | none => exact Listing.nil
    | some g => exact Listing.findAll (hpos.types g h).1 (fun _ => rfl) hrefl fun _ => rfl
  | typeAlias =>
    simp only [elementsOf]
    cases h : language.grammar.types with
    | none => exact Listing.nil
    | some g => exact Listing.findAll (hpos.types g h).2 (fun _ => rfl) hrefl fun _ => rfl
  | component =>
    simp only [elementsOf]
    cases h : language.grammar.markup with
    | none => exact Listing.nil
    | some g => exact Listing.findAll (hpos.markup g h).1 (fun _ => rfl) hrefl fun _ => rfl
  | hook =>
    simp only [elementsOf]
    cases h : language.grammar.markup with
    | none => exact Listing.nil
    | some g => exact Listing.findAll (hpos.markup g h).2.1 (fun _ => rfl) hrefl fun _ => rfl
  | markupElement =>
    simp only [elementsOf]
    cases h : language.grammar.markup with
    | none => exact Listing.nil
    | some g => exact Listing.findAll (hpos.markup g h).2.2 (fun _ => rfl) hrefl fun _ => rfl

theorem kinds_nodup (language : Language) : (kinds language).Nodup := by
  cases language <;> decide

/-- **A scan is made of one listing for each kind**, in the order in which kinds are listed. -/
theorem elements_eq_flatMap (language : Language) (t : Text) :
    (ofText language t).elements = (kinds language).flatMap (elementsOf language t) := by
  cases language <;>
    simp [ofText, kinds, elementsOf, Language.hasTypes, Language.hasMarkup, Language.grammar,
      Grammar.Scripted.plain, Grammar.Scripted.typed, Grammar.Scripted.marked,
      Grammar.Scripted.typedMarked, Grammar.Indented.python, Grammar.Typed.java,
      Grammar.Typed.csharp, typeElements, markupElements]

/-- Of listings for different kinds put together, those of one kind are its own. -/
theorem filter_flatMap {f : ElementKind → List Element} (hf : ∀ k, ∀ e ∈ f k, e.kind = k)
    {ks : List ElementKind} (hnodup : ks.Nodup) (kind : ElementKind) :
    (ks.flatMap f).filter (·.kind = kind) = if kind ∈ ks then f kind else [] := by
  induction ks with
  | nil => simp
  | cons k ks ih =>
    obtain ⟨hk, hks⟩ := List.nodup_cons.1 hnodup
    rw [List.flatMap_cons, List.filter_append, ih hks]
    by_cases h : kind = k
    · subst h
      rw [if_neg hk, if_pos List.mem_cons_self, List.append_nil, List.filter_eq_self]
      exact fun e he => by simpa using hf _ e he
    · have hnone : (f k).filter (·.kind = kind) = [] := by
        rw [List.filter_eq_nil_iff]
        intro e he
        simpa [hf k e he] using fun hkk : k = kind => h hkk.symm
      rw [hnone, List.nil_append]
      simp [h]

theorem ofKind_eq (language : Language) (t : Text) (kind : ElementKind) :
    (ofText language t).ofKind kind
      = if kind ∈ kinds language then elementsOf language t kind else [] := by
  unfold ofKind
  rw [elements_eq_flatMap]
  exact filter_flatMap (fun k => (elementsOf_listing language t k).kind_eq) (kinds_nodup language)
    kind

/-- What the summary lists under a kind: routines with their lines, and other elements as they
are. -/
def listed (s : Scan) (kind : ElementKind) : List Json :=
  if kind = .function then s.routines.map Routine.toJson else (s.ofKind kind).map Element.toJson

/-- **Every scan is well formed.** For every text and language: routines are well placed and follow
one another; every element is in the text, on the line it says, and of a kind that the language
lists, with places that increase within a kind; and the summary lists every element under its kind,
once, as a field for each kind holds the elements of that kind in order. -/
theorem scan_wellPlaced (language : Language) (t : Text) :
    let s := ofText language t
    (∀ r ∈ Routine.scan language t, r.WellPlaced t) ∧
    ((Routine.scan language t).Pairwise fun a b => a.signatureEnd ≤ b.offset) ∧
    (∀ e ∈ s.elements, e.offset < t.length ∧ e.line = 1 + (t.take e.offset).count '\n' ∧
      e.kind ∈ kinds language) ∧
    (∀ kind, (s.ofKind kind).Pairwise fun a b => a.offset < b.offset) ∧
    (kinds language).Nodup ∧ (kinds language).flatMap s.ofKind = s.elements ∧
    s.ofKind .function = (Routine.scan language t).map Element.ofRoutine ∧
    ((kinds language).map ElementKind.listName).Nodup ∧
    (Summary.ofText language t).toJson.field "structure"
      = .obj ((kinds language).map fun kind => (kind.listName, .arr (s.listed kind))) := by
  intro s
  have hlisting := elementsOf_listing language t
  have hof : ∀ kind ∈ kinds language, s.ofKind kind = elementsOf language t kind :=
    fun kind hk => by simp only [s, ofKind_eq, if_pos hk]
  refine ⟨?_, Routine.scan_pairwise language t, ?_, ?_, kinds_nodup language, ?_, ?_, ?_, ?_⟩
  · intro r hr
    obtain ⟨m, hm, hmr⟩ := Routine.mem_scan hr
    exact Routine.ofMatch?_wellPlaced hm hmr
  · intro e he
    simp only [s, elements_eq_flatMap, List.mem_flatMap] at he
    obtain ⟨kind, hkind, he⟩ := he
    have hl := hlisting kind
    exact ⟨hl.offset_lt e he, hl.line_eq e he, (hl.kind_eq e he).symm ▸ hkind⟩
  · intro kind
    simp only [s, ofKind_eq]
    split
    · exact (hlisting kind).increasing
    · exact List.Pairwise.nil
  · simp only [s, elements_eq_flatMap]
    exact List.flatMap_congr hof
  · exact hof .function (by simp [kinds])
  · cases language <;> decide
  · show (ofText language t).structureJson = _
    unfold structureJson listed
    congr 1
    apply List.map_congr_left
    intro kind _
    split <;> rfl

end Scan

end CodeSurvey
