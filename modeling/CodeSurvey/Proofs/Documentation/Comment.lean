import CodeSurvey.Documentation.Template
import CodeSurvey.Proofs.Source.Pieces
import CodeSurvey.Proofs.Text.Case
import CodeSurvey.Proofs.Text.LineCut

/-!
# Doc comments that close once

A block comment ends where its closing mark first stands. The fixed texts of a template and the name of a function
hold none, in whichever words the name is told. The names, types and default values of parameters are copied as the
signature has them, and a signature may hold anything: a comment between two parameters, a default value with a
regular expression. So **a template is one comment exactly if nothing that it copies holds the closing mark**, and it
is one if the signature holds none.

* `HoldsCloser`, `holdsCloser_append`: the closing mark in a text and in its parts.
* `closesOnce_frame`: a frame of comment marks closes once exactly if no line in it holds the mark.
* `NameWords.mem_describe`: the words of a name bring in no marks.
* `copied`: what a template copies from the parameters.
* `ofRoutine_comment`: when a template is one comment.
-/

namespace CodeSurvey

/-! ## The words of a name -/

namespace NameWords

variable {d : Char} {name w : Text}

/-- The words of a name are parts of it. -/
theorem infix_of_mem_split (h : w ∈ split name) : w <:+: name := by
  unfold split at h
  split at h
  · exact (Text.splitWhen_pieces _ name).infix_of_mem (List.mem_of_mem_filter h)
  · split at h
    · obtain rfl := List.mem_singleton.1 h
      exact List.infix_rfl
    · obtain ⟨m, hm, rfl⟩ := List.mem_map.1 h
      have hfits := Pattern.findAll_fits hm
      have htext : m.text = Text.slice name m.first m.last := by
        unfold Match.text Text.slice
        rw [hfits.start_eq, Cursor.ofPlace_after]
      rw [htext]
      exact (List.take_prefix _ _).isInfix.trans (List.drop_suffix _ name).isInfix

theorem mem_of_mem_capitalized (hd : d.toNat ≤ 0x40) (h : d ∈ capitalized w) : d ∈ w := by
  cases w with
  | nil => exact h
  | cons c rest =>
    rw [capitalized, List.mem_append] at h
    rcases h with h | h
    · rw [List.mem_singleton.1 (Text.mem_of_mem_upper hd h)]
      exact List.mem_cons_self
    · exact List.mem_cons_of_mem c h

/-- **The first sentence about a name has no marks but those of the name**, spaces and the point. -/
theorem mem_describe (hd : d.toNat ≤ 0x40) (h : d ∈ describe name) : d ∈ name ∨ d = ' ' ∨ d = '.' := by
  unfold describe at h
  split at h
  · have hfixed : "Perform operation.".toList.all (fun c => decide (c.toNat ≤ 0x40 → c = ' ' ∨ c = '.')) = true := by
      decide
    exact Or.inr (of_decide_eq_true (List.all_eq_true.1 hfixed d h) hd)
  · rw [List.mem_append, List.mem_singleton] at h
    rcases h with h | h
    · rcases Text.mem_join (mem_of_mem_capitalized hd h) with hspace | ⟨x, hx, hdx⟩
      · exact Or.inr (Or.inl (List.mem_singleton.1 hspace))
      · obtain ⟨w, hw, rfl⟩ := List.mem_map.1 hx
        exact Or.inl ((infix_of_mem_split hw).subset (Text.mem_of_mem_lower hd hdx))
    · exact Or.inr (Or.inr h)

end NameWords

namespace DocTemplate

variable {language : Language} {t x y name last : Text} {mid tags lead ls : List Text} {r : Routine}

/-! ## The closing mark -/

/-- The mark that closes a comment stands somewhere in the text. -/
def HoldsCloser (t : Text) : Prop :=
  "*/".toList <:+: t

instance (t : Text) : Decidable (HoldsCloser t) :=
  decidable_of_iff _ (Text.occursIn_iff "*/".toList t)

/-- The mark that closes a comment stands nowhere but at the end. -/
def ClosesOnce (t : Text) : Prop :=
  ∀ u v, t = u ++ ("*/".toList ++ v) → v = []

@[simp] theorem not_holdsCloser_nil : ¬ HoldsCloser [] := by
  decide

theorem not_holdsCloser (h : '/' ∉ t) : ¬ HoldsCloser t := by
  intro hcloser
  exact h (hcloser.subset (by decide))

theorem holdsCloser_cons {c : Char} : HoldsCloser (c :: t) ↔ (c = '*' ∧ t.head? = some '/') ∨ HoldsCloser t := by
  have hhead : ['*', '/'] <+: c :: t ↔ c = '*' ∧ t.head? = some '/' := by
    cases t with
    | nil => simp
    | cons d t => simp [List.cons_prefix_cons, eq_comm]
  rw [← hhead]
  exact List.infix_cons_iff

/-- **The closing mark stands in one of two parts**, unless it comes about where they meet. -/
theorem holdsCloser_append (h : x.getLast? ≠ some '*' ∨ y.head? ≠ some '/') :
    HoldsCloser (x ++ y) ↔ HoldsCloser x ∨ HoldsCloser y := by
  induction x with
  | nil => simp
  | cons c x ih =>
    cases x with
    | nil =>
      -- here the two parts meet
      have hmeet : ¬ (c = '*' ∧ y.head? = some '/') := by
        intro hboth
        rcases h with h | h
        · exact h (by rw [hboth.1]; rfl)
        · exact h hboth.2
      rw [List.cons_append, List.nil_append, holdsCloser_cons, holdsCloser_cons]
      simp [hmeet]
    | cons d x =>
      have ih' := ih (by rwa [List.getLast?_cons_cons] at h)
      have hhead : ((d :: x) ++ y).head? = (d :: x).head? := rfl
      rw [List.cons_append, holdsCloser_cons, ih', hhead, ← or_assoc, ← holdsCloser_cons]

theorem holdsCloser_unlines : HoldsCloser (Text.unlines ls) ↔ ∃ l ∈ ls, HoldsCloser l := by
  induction ls with
  | nil => simp [Text.unlines]
  | cons l ls ih =>
    rw [Text.unlines_cons, holdsCloser_append (Or.inr (by simp)), holdsCloser_cons, ih]
    simp

/-! ## Frames -/

/-- A text with the closing mark put behind it closes once exactly if it does not hold the mark itself. -/
theorem closesOnce_append : ClosesOnce (t ++ " */".toList) ↔ ¬ HoldsCloser t := by
  constructor
  · intro honce hcloser
    obtain ⟨u, v, rfl⟩ := hcloser
    have hnil := honce u (v ++ " */".toList) (by simp only [List.append_assoc])
    simp at hnil
  · intro hno u v heq
    -- all but the last character would hold a mark already
    rcases List.eq_nil_or_concat v with rfl | ⟨w, c, rfl⟩
    · rfl
    · have hsplit : (t ++ [' ', '*']) ++ ['/'] = (u ++ ("*/".toList ++ w)) ++ [c] := by
        rw [List.concat_eq_append] at heq
        rw [List.append_assoc, List.append_assoc, List.append_assoc]
        exact heq
      have hinit : t ++ [' ', '*'] = u ++ ("*/".toList ++ w) := (List.append_inj' hsplit rfl).1
      have hcloser : HoldsCloser (t ++ [' ', '*']) := ⟨u, w, by rw [hinit, List.append_assoc]⟩
      rw [holdsCloser_append (Or.inr (by decide))] at hcloser
      exact absurd hcloser (not_or.2 ⟨hno, by decide⟩)

/-- Lines between the marks of a doc comment. -/
def frame (mid : List Text) : Text :=
  Text.joinLines ("/**".toList :: (mid ++ [" */".toList]))

theorem frame_eq (mid : List Text) : frame mid = Text.unlines ("/**".toList :: mid) ++ " */".toList :=
  Text.joinLines_concat ("/**".toList :: mid) " */".toList

theorem frame_opens (mid : List Text) : "/**".toList <+: frame mid := by
  rw [frame_eq, Text.unlines_cons, List.append_assoc]
  exact List.prefix_append _ _

theorem frame_closes (mid : List Text) : "*/".toList <:+ frame mid := by
  rw [frame_eq]
  exact (List.suffix_cons ' ' "*/".toList).trans (List.suffix_append _ _)

/-- **A frame closes once exactly if no line in it holds the closing mark.** -/
theorem closesOnce_frame : ClosesOnce (frame mid) ↔ ∀ l ∈ mid, ¬ HoldsCloser l := by
  have hopen : ¬ HoldsCloser "/**".toList := by decide
  rw [frame_eq, closesOnce_append, holdsCloser_unlines, List.exists_mem_cons_iff, or_iff_right hopen]
  push Not
  rfl

/-! ## Templates -/

theorem forall_mem_under (hlead : ∀ l ∈ lead, ¬ HoldsCloser l) :
    (∀ l ∈ under lead tags, ¬ HoldsCloser l) ↔ ∀ l ∈ tags, ¬ HoldsCloser l := by
  cases tags with
  | nil => simp [under]
  | cons tag tags =>
    show (∀ l ∈ lead ++ tag :: tags, ¬ HoldsCloser l) ↔ _
    rw [List.forall_mem_append]
    exact and_iff_right hlead

/-- A sentence about a name, tags and one line more. -/
def tagged (name : Text) (tags : List Text) (last : Text) : List Text :=
  (" * ".toList ++ NameWords.describe name) :: (under [" *".toList] tags ++ [last])

theorem closesOnce_tagged (hname : '/' ∉ name) (hlast : ¬ HoldsCloser last) :
    ClosesOnce (frame (tagged name tags last)) ↔ ∀ l ∈ tags, ¬ HoldsCloser l := by
  have hsentence : ¬ HoldsCloser (" * ".toList ++ NameWords.describe name) := by
    apply not_holdsCloser
    intro hslash
    rcases List.mem_append.1 hslash with hfixed | hwords
    · exact absurd hfixed (by decide)
    · rcases NameWords.mem_describe (by decide) hwords with h | h | h
      · exact hname h
      · exact absurd h (by decide)
      · exact absurd h (by decide)
  have hlead : ∀ l ∈ [" *".toList], ¬ HoldsCloser l := by decide
  rw [closesOnce_frame, tagged, List.forall_mem_cons, List.forall_mem_append, forall_mem_under hlead,
    List.forall_mem_singleton]
  exact (and_iff_right hsentence).trans (and_iff_left hlast)

theorem frame_tagged (name : Text) (tags : List Text) (last : Text) :
    Text.joinLines (["/**".toList, " * ".toList ++ NameWords.describe name] ++ under [" *".toList] tags
      ++ [last, " */".toList]) = frame (tagged name tags last) := by
  have hassoc := List.append_assoc (under [" *".toList] tags) [last] [" */".toList]
  exact congrArg
    (fun ls => Text.joinLines ("/**".toList :: (" * ".toList ++ NameWords.describe name) :: ls)) hassoc.symm

/-- All that a tag may show of a parameter. -/
def texts (p : Param) : List Text :=
  p.name :: (p.type.toList ++ p.defaultValue.toList)

theorem holdsCloser_type (p : Param) :
    HoldsCloser ((typeOf? p).getD ['*']) ↔ ∃ x ∈ p.type.toList, HoldsCloser x := by
  have hstar : ¬ HoldsCloser ['*'] := by decide
  unfold typeOf?
  cases p.type with
  | none => simp [hstar]
  | some type =>
    cases type with
    | nil =>
      show HoldsCloser ['*'] ↔ _
      simp [hstar]
    | cons c type =>
      show HoldsCloser (c :: type) ↔ _
      simp

/-- A tag holds the closing mark only in what it copies. -/
theorem holdsCloser_typedTag (p : Param) : HoldsCloser (typedTag p) ↔ ∃ x ∈ texts p, HoldsCloser x := by
  have hopen : ¬ HoldsCloser " * @param \x7b".toList := by decide
  have hclose : ¬ HoldsCloser "\x7d ".toList := by decide
  have hrest : ¬ HoldsCloser " - Description".toList := by decide
  have hspace : ∀ x : Text, (x ++ "\x7d ".toList).getLast? ≠ some '*' := by
    intro x
    rw [List.getLast?_append]
    exact fun h => absurd (Option.some.inj h) (by decide)
  -- wherever a copied text meets a fixed one, the fixed one has a bracket, a brace or a blank
  unfold typedTag
  rw [holdsCloser_append (Or.inr (by decide)), or_iff_left hrest, holdsCloser_append (Or.inl (hspace _)),
    holdsCloser_append (Or.inr (by decide)), or_iff_left hclose, holdsCloser_append (Or.inl (by decide)),
    or_iff_right hopen, holdsCloser_type]
  unfold texts
  cases p.defaultValue with
  | none => simp [or_comm]
  | some d =>
    have hend : ¬ HoldsCloser [']'] := by decide
    have hshown : HoldsCloser ('[' :: (p.name ++ '=' :: (d ++ [']']))) ↔ HoldsCloser p.name ∨ HoldsCloser d := by
      rw [holdsCloser_cons, holdsCloser_append (Or.inr (by simp)), holdsCloser_cons,
        holdsCloser_append (Or.inr (by decide))]
      simp [hend]
    simp [hshown, or_comm, or_left_comm, or_assoc]

theorem holdsCloser_plainTag (name : Text) :
    HoldsCloser (" * @param ".toList ++ name ++ " Description".toList) ↔ HoldsCloser name := by
  have hopen : ¬ HoldsCloser " * @param ".toList := by decide
  have hrest : ¬ HoldsCloser " Description".toList := by decide
  rw [holdsCloser_append (Or.inr (by decide)), or_iff_left hrest, holdsCloser_append (Or.inl (by decide)),
    or_iff_right hopen]

/-- **What a template copies from the parameters**: a component shows none of them, a language that names types first
their names, and all others everything. -/
def copied (language : Language) (r : Routine) : List Text :=
  if isComponent language r then []
  else if language.typeFirst then r.params.map Param.name
  else r.params.flatMap texts

theorem not_holdsCloser_between {a b : Text} (ha : '/' ∉ a) (hx : '/' ∉ x) (hb : '/' ∉ b) :
    ¬ HoldsCloser (a ++ x ++ b) := by
  apply not_holdsCloser
  rw [List.mem_append, List.mem_append]
  exact fun h => h.elim (fun h => h.elim ha hx) hb

/-- The template of a component, as a frame. -/
theorem frame_component (language : Language) (r : Routine) : Text.joinLines (component language r)
    = frame [" * ".toList ++ r.name ++ " Component".toList, " *".toList,
      " * @param \x7b".toList ++ (if language.hasTypes then r.name ++ "Props".toList else "Object".toList)
        ++ "\x7d props - Component props".toList,
      " * @returns \x7bJSX.Element\x7d Rendered component".toList] :=
  rfl

theorem closesOnce_component (hname : '/' ∉ r.name) : ClosesOnce (Text.joinLines (component language r)) := by
  have htype : '/' ∉ (if language.hasTypes then r.name ++ "Props".toList else "Object".toList) := by
    split
    · exact fun h => (List.mem_append.1 h).elim hname (by decide)
    · decide
  rw [frame_component, closesOnce_frame, List.forall_mem_cons, List.forall_mem_cons, List.forall_mem_cons,
    List.forall_mem_singleton]
  exact ⟨not_holdsCloser_between (by decide) hname (by decide), by decide,
    not_holdsCloser_between (by decide) htype (by decide), by decide⟩

theorem isInfix_copied (hr : r ∈ Routine.scan language t) :
    ∀ x ∈ copied language r, x <:+: Text.slice t r.offset r.signatureEnd := by
  intro x hx
  unfold copied at hx
  have hwithin := Routine.within_of_mem_scan hr
  split at hx
  · cases hx
  · split at hx
    · obtain ⟨p, hp, rfl⟩ := List.mem_map.1 hx
      exact (hwithin p hp).name
    · rename_i hfirst
      obtain ⟨p, hp, hx⟩ := List.mem_flatMap.1 hx
      unfold texts at hx
      rw [List.mem_cons, List.mem_append, Option.mem_toList, Option.mem_toList] at hx
      rcases hx with rfl | hx | hx
      · exact (hwithin p hp).name
      · exact (hwithin p hp).type (by simpa using hfirst) x hx
      · exact (hwithin p hp).defaultValue x hx

/-- The three kinds of block comments. -/
theorem ofRoutine_cases (hl : language.isScript = true ∨ language = .java) (r : Routine) :
    (isComponent language r = true ∧ ofRoutine language r = Text.joinLines (component language r)) ∨
    (isComponent language r = false ∧ language.typeFirst = false ∧
      ofRoutine language r = Text.joinLines (typedTags r)) ∨
    (isComponent language r = false ∧ language.typeFirst = true ∧
      ofRoutine language r = Text.joinLines (plainTags r)) := by
  rcases hl with hl | rfl
  · have hlines : language.typeFirst = false ∧ ofRoutine language r
        = Text.joinLines (if isComponent language r then component language r else typedTags r) := by
      cases language <;> cases hl <;> exact ⟨rfl, rfl⟩
    obtain ⟨hfirst, hlines⟩ := hlines
    cases hcomponent : isComponent language r with
    | true =>
      rw [hcomponent, if_pos rfl] at hlines
      exact Or.inl ⟨rfl, hlines⟩
    | false =>
      rw [hcomponent, if_neg Bool.false_ne_true] at hlines
      exact Or.inr (Or.inl ⟨rfl, hfirst, hlines⟩)
  · exact Or.inr (Or.inr ⟨rfl, rfl, rfl⟩)

theorem exists_frame (hl : language.isScript = true ∨ language = .java) (r : Routine) :
    ∃ mid, ofRoutine language r = frame mid := by
  rcases ofRoutine_cases hl r with ⟨-, h⟩ | ⟨-, -, h⟩ | ⟨-, -, h⟩
  · exact ⟨_, h.trans (frame_component language r)⟩
  · exact ⟨_, h.trans (frame_tagged _ _ _)⟩
  · exact ⟨_, h.trans (frame_tagged _ _ _)⟩

theorem closesOnce_ofRoutine (hl : language.isScript = true ∨ language = .java) (hname : '/' ∉ r.name) :
    ClosesOnce (ofRoutine language r) ↔ ∀ x ∈ copied language r, ¬ HoldsCloser x := by
  unfold copied
  rcases ofRoutine_cases hl r with ⟨hcomponent, h⟩ | ⟨hcomponent, hfirst, h⟩ | ⟨hcomponent, hfirst, h⟩
  · have honce : ClosesOnce (Text.joinLines (component language r)) := closesOnce_component hname
    rw [hcomponent, if_pos rfl, h]
    exact iff_of_true honce (by simp)
  · have hlast : ¬ HoldsCloser " * @returns \x7b*\x7d Description".toList := by decide
    rw [hcomponent, if_neg Bool.false_ne_true, hfirst, if_neg Bool.false_ne_true, h, typedTags, frame_tagged,
      closesOnce_tagged hname hlast, List.forall_mem_map, List.forall_mem_flatMap]
    simp only [holdsCloser_typedTag, not_exists, not_and]
  · have hlast : ¬ HoldsCloser " * @return Description".toList := by decide
    rw [hcomponent, if_neg Bool.false_ne_true, hfirst, if_pos rfl, h, plainTags, frame_tagged,
      closesOnce_tagged hname hlast, List.forall_mem_map, List.forall_mem_map]
    simp only [holdsCloser_plainTag]

/-- **When a suggested doc comment is one comment.** For every routine of a scan the template opens with the mark of a
doc comment and ends with the mark that closes it. This mark stands nowhere else exactly if nothing that is copied from
the parameters holds it, and so it is if the signature does not hold it. -/
theorem ofRoutine_comment (hl : language.isScript = true ∨ language = .java) (hr : r ∈ Routine.scan language t) :
    "/**".toList <+: ofRoutine language r ∧ "*/".toList <:+ ofRoutine language r ∧
      (ClosesOnce (ofRoutine language r) ↔ ∀ x ∈ copied language r, ¬ HoldsCloser x) ∧
      (¬ HoldsCloser (Text.slice t r.offset r.signatureEnd) → ClosesOnce (ofRoutine language r)) := by
  have honce := closesOnce_ofRoutine hl (Routine.slash_notMem_name hr)
  obtain ⟨mid, hmid⟩ := exists_frame hl r
  refine ⟨?_, ?_, honce, ?_⟩
  · rw [hmid]
    exact frame_opens mid
  · rw [hmid]
    exact frame_closes mid
  · intro hsignature
    apply honce.2
    intro x hx hcloser
    exact hsignature (hcloser.trans (isInfix_copied hr x hx))

/-- A type and a default value in which the two characters of the mark stand apart. -/
theorem ofRoutine_comment_ratio :
    ∃ r ∈ Routine.scan .typescript "function ratio(share: number, scale = 2 * a / b) \x7b\x7d".toList,
      ofRoutine .typescript r = Text.joinLines (["/**", " * Ratio.", " *",
        " * @param \x7bnumber\x7d share - Description", " * @param \x7b*\x7d [scale=2 * a / b] - Description",
        " * @returns \x7b*\x7d Description", " */"].map String.toList) ∧
      ClosesOnce (ofRoutine .typescript r) := by
  have hscan : (Routine.scan .typescript "function ratio(share: number, scale = 2 * a / b) \x7b\x7d".toList).map
      (ofRoutine .typescript) = [Text.joinLines (["/**", " * Ratio.", " *",
        " * @param \x7bnumber\x7d share - Description", " * @param \x7b*\x7d [scale=2 * a / b] - Description",
        " * @returns \x7b*\x7d Description", " */"].map String.toList)] := by
    decide +kernel
  obtain ⟨r, hr, htemplate⟩ := List.mem_map.1 (hscan ▸ List.mem_singleton_self _)
  refine ⟨r, hr, htemplate, ?_⟩
  apply (ofRoutine_comment (Or.inl rfl) hr).2.2.2
  -- not even the whole text holds the mark
  intro hcloser
  have htext : HoldsCloser "function ratio(share: number, scale = 2 * a / b) \x7b\x7d".toList :=
    hcloser.trans ((List.take_prefix _ _).isInfix.trans (List.drop_suffix _ _).isInfix)
  exact absurd htext (by decide)

/-- A comment in the list of parameters is copied, and its end ends the template. -/
theorem ofRoutine_comment_early :
    ∃ r ∈ Routine.scan .javascript "function f(a /* first */, b) \x7b\x7d".toList,
      ¬ ClosesOnce (ofRoutine .javascript r) := by
  have hscan : (Routine.scan .javascript "function f(a /* first */, b) \x7b\x7d".toList).map (ofRoutine .javascript)
      = ["/**\n * F.\n *\n * @param \x7b*\x7d a /* first ".toList ++ ("*/".toList ++ (" - Description\n".toList ++
        " * @param \x7b*\x7d b - Description\n * @returns \x7b*\x7d Description\n */".toList))] := by
    decide +kernel
  obtain ⟨r, hr, htemplate⟩ := List.mem_map.1 (hscan ▸ List.mem_singleton_self _)
  refine ⟨r, hr, ?_⟩
  intro honce
  have hnil := honce _ _ htemplate
  exact absurd hnil (by decide)

end DocTemplate

end CodeSurvey
