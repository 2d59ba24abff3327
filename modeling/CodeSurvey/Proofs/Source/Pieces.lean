import Mathlib.Data.List.DropRight
import CodeSurvey.Proofs.Pattern.Captured
import CodeSurvey.Proofs.Source.Placement

/-!
# What a scan copies

A scan makes nothing up: names, types and default values are cut out of the text of the signature, as they stand
there. Every cut on the way leaves a connected part: between separators, between blanks, in front of a mark or behind
one. The only exception are types that stand in front of names, whose words are joined anew.

* `Pieces`: a list of cuts, the first from the start of the text on.
* `Text.infix_of_mem_words`, `Brackets.infix_of_mem_split`: what stands between separators is part of the text.
* `Param.Within`, `Param.within_of_mem_parseAll`: what a parameter is made of is part of the list.
* `Routine.within_of_mem_scan`: what a routine is made of is part of its signature.
-/

namespace CodeSurvey

/-! ## Cutting -/

/-- Parts of a text, of which the first starts where the text starts. -/
def Pieces (t : Text) : List Text → Prop
  | [] => False
  | piece :: pieces => piece <+: t ∧ ∀ x ∈ pieces, x <:+: t

namespace Pieces

variable {t x piece : Text} {pieces l : List Text}

theorem infix_of_mem (h : Pieces t l) (hx : x ∈ l) : x <:+: t := by
  cases l with
  | nil => cases hx
  | cons piece pieces =>
    rcases List.mem_cons.1 hx with rfl | hx
    · exact h.1.isInfix
    · exact h.2 x hx

/-- One character more in front separates, or it goes to the first piece. -/
theorem cons (h : Pieces t (piece :: pieces)) (c : Char) (separates : Bool) :
    Pieces (c :: t) (if separates then [] :: piece :: pieces else (c :: piece) :: pieces) := by
  have hgrow : ∀ x, x <:+: t → x <:+: c :: t := fun x hx => hx.trans (List.suffix_cons c t).isInfix
  cases separates with
  | true => exact ⟨List.nil_prefix, fun x hx => hgrow x (h.infix_of_mem hx)⟩
  | false => exact ⟨List.cons_prefix_cons.2 ⟨rfl, h.1⟩, fun x hx => hgrow x (h.2 x hx)⟩

end Pieces

namespace Text

variable {t w : Text}

theorem isInfix_trim (t : Text) : trim t <:+: t := by
  have hright : trimRight (trimLeft t) <+: trimLeft t := List.rdropWhile_prefix isBlank _
  have hleft : trimLeft t <:+ t := List.dropWhile_suffix isBlank
  exact hright.isInfix.trans hleft.isInfix

theorem splitWhen_pieces (accepts : Char → Bool) (t : Text) : Pieces t (splitWhen accepts t) := by
  induction t with
  | nil => exact ⟨List.prefix_rfl, by simp⟩
  | cons c rest ih =>
    rw [splitWhen]
    cases hrest : splitWhen accepts rest with
    | nil => exact absurd hrest (splitWhen_ne_nil accepts rest)
    | cons piece pieces => exact (hrest ▸ ih).cons c (accepts c)

theorem infix_of_mem_words (h : w ∈ words t) : w <:+: t := by
  unfold words at h
  exact (splitWhen_pieces isBlank t).infix_of_mem (List.mem_of_mem_filter h)

theorem mem_join {c : Char} {separator : Text} {pieces : List Text} (h : c ∈ join separator pieces) :
    c ∈ separator ∨ ∃ x ∈ pieces, c ∈ x := by
  induction pieces with
  | nil => cases h
  | cons a l ih =>
    cases l with
    | nil =>
      rw [join_singleton] at h
      exact Or.inr ⟨a, List.mem_cons_self, h⟩
    | cons b l =>
      rw [join_cons_cons, List.mem_append, List.mem_append] at h
      rcases h with (h | h) | h
      · exact Or.inr ⟨a, List.mem_cons_self, h⟩
      · exact Or.inl h
      · apply (ih h).imp_right
        intro hx
        obtain ⟨x, hx, hc⟩ := hx
        exact ⟨x, List.mem_cons_of_mem a hx, hc⟩

end Text

namespace Brackets

theorem splitFrom_pieces (separator : Char) (t : Text) : ∀ previous depth,
    Pieces t (splitFrom separator previous depth t) := by
  induction t with
  | nil =>
    intro previous depth
    exact ⟨List.prefix_rfl, by simp⟩
  | cons c rest ih =>
    intro previous depth
    have hpieces := ih (some c) (depthAfter previous depth c)
    rw [splitFrom]
    cases hrest : splitFrom separator (some c) (depthAfter previous depth c) rest with
    | nil => exact absurd hrest (splitFrom_ne_nil separator rest _ _)
    | cons piece pieces => exact (hrest ▸ hpieces).cons c (c == separator && depthAfter previous depth c == 0)

theorem infix_of_mem_split {separator : Char} {t piece : Text} (h : piece ∈ split separator t) : piece <:+: t :=
  (splitFrom_pieces separator t none 0).infix_of_mem h

end Brackets

/-! ## Parameters -/

namespace Param

variable {language : Language} {t u x : Text} {p : Param}

/-- **What a parameter is made of is part of a text**: its name, its default value and, where it stands behind the
name, its type. -/
structure Within (language : Language) (p : Param) (t : Text) : Prop where
  name : p.name <:+: t
  type : language.typeFirst = false → ∀ x ∈ p.type, x <:+: t
  defaultValue : ∀ x ∈ p.defaultValue, x <:+: t

theorem Within.mono (h : Within language p t) (ht : t <:+: u) : Within language p u :=
  ⟨h.name.trans ht, fun hfirst x hx => (h.type hfirst x hx).trans ht, fun x hx => (h.defaultValue x hx).trans ht⟩

theorem infix_of_mem_nonEmpty? (h : x ∈ nonEmpty? (Text.trim u)) (hu : u <:+: t) : x <:+: t := by
  unfold nonEmpty? at h
  split at h
  · cases h
  · obtain rfl := Option.some.inj h
    exact (Text.isInfix_trim u).trans hu

theorem isInfix_cutDefault (t : Text) : (cutDefault t).1 <:+: t ∧ ∀ x ∈ (cutDefault t).2, x <:+: t := by
  unfold cutDefault
  split
  · exact ⟨(List.take_prefix _ t).isInfix, fun x hx => infix_of_mem_nonEmpty? hx (List.drop_suffix _ t).isInfix⟩
  · exact ⟨List.infix_rfl, by simp⟩

theorem isInfix_cutType (t : Text) : (cutType t).1 <:+: t ∧ ∀ x ∈ (cutType t).2, x <:+: t := by
  unfold cutType
  split
  · exact ⟨(Text.isInfix_trim _).trans (List.take_prefix _ t).isInfix,
      fun x hx => infix_of_mem_nonEmpty? hx (List.drop_suffix _ t).isInfix⟩
  · exact ⟨Text.isInfix_trim t, by simp⟩

theorem isInfix_bareName (t : Text) : bareName t <:+: t := by
  have hmodifiers : ∀ (ms : List Text) (n : Text), n <:+: t →
      ms.foldl (fun n m => if m.isPrefixOf n then Text.trim (n.drop m.length) else n) n <:+: t := by
    intro ms
    induction ms with
    | nil => exact fun n hn => hn
    | cons m ms ih =>
      intro n hn
      apply ih
      show (if m.isPrefixOf n then Text.trim (n.drop m.length) else n) <:+: t
      split
      · exact (Text.isInfix_trim _).trans ((List.drop_suffix _ n).isInfix.trans hn)
      · exact hn
  exact (List.rdropWhile_prefix _ _).isInfix.trans (hmodifiers modifiers t List.infix_rfl)

theorem within_of_ofNameFirst? (h : ofNameFirst? language t = some p) : Within language p t := by
  obtain ⟨hhead, hdefault⟩ := isInfix_cutDefault t
  obtain ⟨hname, htype⟩ := isInfix_cutType (cutDefault t).1
  simp only [ofNameFirst?] at h
  obtain ⟨-, hp⟩ := Option.ite_none_left_eq_some.1 h
  obtain rfl := Option.some.inj hp
  refine ⟨?_, fun _ x hx => (htype x hx).trans hhead, hdefault⟩
  show (if language.hasTypes then bareName (cutType (cutDefault t).1).1 else (cutType (cutDefault t).1).1) <:+: t
  split
  · exact (isInfix_bareName _).trans (hname.trans hhead)
  · exact hname.trans hhead

theorem within_of_ofTypeFirst? (hfirst : language.typeFirst = true) (h : ofTypeFirst? t = some p) :
    Within language p t := by
  obtain ⟨hhead, hdefault⟩ := isInfix_cutDefault t
  simp only [ofTypeFirst?] at h
  split at h
  · cases h
  · rename_i name before hwords
    obtain rfl := Option.some.inj h
    have hname : name ∈ Text.words (cutDefault t).1 := by
      rw [← List.mem_reverse, hwords]
      exact List.mem_cons_self
    refine ⟨(Text.infix_of_mem_words hname).trans hhead, ?_, hdefault⟩
    -- the words of such a type are joined anew
    intro hno
    rw [hfirst] at hno
    cases hno

theorem within_of_ofPart? (h : ofPart? language t = some p) : Within language p t := by
  simp only [ofPart?] at h
  split at h
  · cases h
  · have hpart := (Option.filter_eq_some_iff.1 h).1
    apply Within.mono _ (Text.isInfix_trim t)
    cases hfirst : language.typeFirst with
    | true =>
      rw [hfirst, if_pos rfl] at hpart
      exact within_of_ofTypeFirst? hfirst hpart
    | false =>
      rw [hfirst, if_neg Bool.false_ne_true] at hpart
      exact within_of_ofNameFirst? hpart

/-- **What the parameters are made of is part of the list.** -/
theorem within_of_mem_parseAll (h : p ∈ parseAll language t) : Within language p t := by
  obtain ⟨part, hpart, hp⟩ := List.mem_filterMap.1 h
  exact (within_of_ofPart? hp).mono (Brackets.infix_of_mem_split hpart)

end Param

/-! ## Routines -/

/-- The groups that hold the name of a function read no slash. -/
theorem Language.name_lacks_slash (language : Language) :
    ∀ g ∈ language.grammar.function.groups, g.1.role = "name" → g.2.lacks '/' = true := by
  cases language <;> decide

namespace Routine

variable {language : Language} {t : Text} {r : Routine}

/-- The match that a routine of a scan comes from. -/
theorem exists_match (hr : r ∈ scan language t) : ∃ m ∈ language.grammar.function.findAll t,
    r.offset = m.first ∧ r.signatureEnd = m.last ∧ m.group? "name" = some r.name ∧
      r.params = Param.parseAll language ((m.group? "params").getD []) := by
  obtain ⟨m, hm, hmr⟩ := List.mem_filterMap.1 hr
  obtain ⟨s, hs, rfl⟩ := Option.map_eq_some_iff.1 hmr
  unfold Match.signature? at hs
  split at hs
  · cases hs
  · rename_i name hname
    obtain ⟨-, hs⟩ := Option.ite_none_left_eq_some.1 hs
    obtain ⟨-, hs⟩ := Option.ite_none_left_eq_some.1 hs
    obtain rfl := Option.some.inj hs
    exact ⟨m, hm, rfl, rfl, hname, rfl⟩

/-- **What the parameters of a routine are made of is part of its signature.** -/
theorem within_of_mem_scan (hr : r ∈ scan language t) :
    ∀ p ∈ r.params, p.Within language (Text.slice t r.offset r.signatureEnd) := by
  intro p hp
  obtain ⟨m, hm, hfirst, hlast, -, hparams⟩ := exists_match hr
  rw [hparams] at hp
  apply (Param.within_of_mem_parseAll hp).mono
  rw [hfirst, hlast]
  cases hgroup : m.group? "params" with
  | none => exact List.nil_infix
  | some x => exact Match.infix_of_group? (Pattern.findAll_fits hm) hgroup

theorem slash_notMem_name (hr : r ∈ scan language t) : '/' ∉ r.name := by
  obtain ⟨m, hm, -, -, hname, -⟩ := exists_match hr
  obtain ⟨g, hg, hrole, hspelled⟩ := Match.spelled_of_group? hm hname
  exact Pattern.notMem_of_lacks (language.name_lacks_slash g hg hrole) hspelled

end Routine

end CodeSurvey
