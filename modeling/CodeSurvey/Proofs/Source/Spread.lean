import CodeSurvey.Proofs.Pattern.Unnoticed
import CodeSurvey.Proofs.Source.Brackets
import CodeSurvey.Proofs.Text.Trim
import CodeSurvey.Source.Param

/-!
# Parameters with one more gap between them

A parameter list is cut at commas, at assignment signs and at colons, and trimmed. What stands in front of a character
is looked at on the way, but a gap behind a line end, a space or a tab is like what is there already. So one more gap in
a list changes no cut, and as many parameters are read.

* `Brackets.split_widened`: the gap goes into one of the pieces.
* `Brackets.upTo_spread`: what stands in front of the first accepted place.
* `Text.Inner`: one more gap between characters that are no blanks. `Text.inner_trim`: what is left of the gap after
  trimming.
* `Param.isSome_ofPart?_spread`: a piece declares a parameter with the gap or without it.
* `Param.length_parseAll_spread`: so a list declares as many parameters.
-/

namespace CodeSurvey

/-- A line end, a space or a tab is a blank, no bracket, and no part of an arrow or a comparison. -/
theorem Text.isBreak_spec {ch : Char} (h : Text.isBreak ch = true) :
    Text.isBlank ch = true ∧ Brackets.Plain ch ∧ Brackets.Fresh (some ch) := by
  have hch : ch = '\n' ∨ ch = ' ' ∨ ch = '\t' := by
    simpa [Text.isBreak, Pattern.isGap] using h
  have hfresh : ch ∉ ['=', '-', '!', '<', '>'] := by
    rcases hch with rfl | rfl | rfl <;> decide
  refine ⟨?_, ?_, Brackets.fresh_some hfresh⟩ <;> rcases hch with rfl | rfl | rfl <;> decide

namespace Brackets

variable {gap : Char} {previous : Option Char}

theorem fresh_none : Fresh none :=
  fun _ _ h => by cases h

theorem fresh_of_last {z : Char} {front : Text} (hlast : ∀ ch ∈ (z :: front).getLast?, Text.isBreak ch = true) :
    (∀ ch ∈ front.getLast?, Text.isBreak ch = true) ∧ (front = [] → Fresh (some z)) := by
  refine ⟨fun ch hch => hlast ch (by rw [List.getLast?_cons, hch]; rfl), ?_⟩
  rintro rfl
  exact (Text.isBreak_spec (hlast z rfl)).2.2

/-! ## Pieces -/

/-- One more gap goes into one of the pieces; into the first one if that holds all of the front. -/
theorem splitFrom_widened (hgap : Pattern.isGap gap = true) (back : Text) (front : Text) :
    ∀ previous depth, (∀ ch ∈ front.getLast?, Text.isBreak ch = true) → (front = [] → Fresh previous) →
      ∃ (done : List Text) (w : Widening) (pieces : List Text), (done = [] → w.front = front) ∧
        splitFrom ',' previous depth (front ++ gap :: back) = done ++ w.wide :: pieces ∧
        splitFrom ',' previous depth (front ++ back) = done ++ w.narrow :: pieces := by
  have hbreak : Text.isBreak gap = true := by
    rw [Text.isBreak, hgap, Bool.or_true]
  induction front with
  | nil =>
    intro previous depth _ hfresh
    obtain ⟨-, hplain, hgapFresh⟩ := Text.isBreak_spec hbreak
    have hcomma : gap ≠ ',' := by
      rintro rfl
      exact absurd hgap (by decide)
    obtain ⟨rest, pieces, hback⟩ := List.exists_cons_of_ne_nil (splitFrom_ne_nil ',' back none depth)
    refine ⟨[], ⟨[], gap, rest, hgap, by simp⟩, pieces, fun _ => rfl, ?_, ?_⟩
    · simp only [List.nil_append, splitFrom, hplain.depthAfter_eq, splitFrom_fresh hgapFresh, hback]
      simp [hcomma, Widening.wide]
    · rw [List.nil_append, splitFrom_fresh (hfresh rfl), hback]
      rfl
  | cons z front ih =>
    intro previous depth hlast _
    obtain ⟨hlast', hfresh⟩ := fresh_of_last hlast
    obtain ⟨done, w, pieces, hdone, hwide, hnarrow⟩ := ih (some z) (depthAfter previous depth z) hlast' hfresh
    simp only [List.cons_append, splitFrom, hwide, hnarrow]
    by_cases hcut : (z == ',' && depthAfter previous depth z == 0) = true
    · refine ⟨[] :: done, w, pieces, by simp, ?_, ?_⟩ <;> cases done <;> simp [hcut]
    · cases done with
      | nil =>
        refine ⟨[], ⟨z :: front, w.gap, w.back, w.isGap_gap, hlast⟩, pieces, fun _ => rfl, ?_, ?_⟩
        · simp [hcut, Widening.wide, hdone rfl]
        · simp [hcut, Widening.narrow, hdone rfl]
      | cons piece done =>
        refine ⟨(z :: piece) :: done, w, pieces, by simp, ?_, ?_⟩ <;> simp [hcut]

/-- **One more gap in a list goes into one of its pieces.** -/
theorem split_widened (w : Widening) : ∃ (done : List Text) (v : Widening) (pieces : List Text),
    split ',' w.wide = done ++ v.wide :: pieces ∧ split ',' w.narrow = done ++ v.narrow :: pieces := by
  obtain ⟨done, v, pieces, -, hwide, hnarrow⟩ :=
    splitFrom_widened w.isGap_gap w.back w.front none 0 w.isBreak_last fun _ => fresh_none
  exact ⟨done, v, pieces, hwide, hnarrow⟩

/-! ## The first accepted place -/

/-- What stands in front of the first accepted place at depth zero, or all of the text. -/
def upTo (accepts : PlaceTest) (previous : Option Char) (depth : Nat) : Text → Text
  | [] => []
  | c :: rest =>
    if !isOpener c && !isCloser previous c && depth == 0 && accepts previous c rest.head? then []
    else c :: upTo accepts (some c) (depthAfter previous depth c) rest

theorem indexFrom?_upTo (accepts : PlaceTest) (t : Text) : ∀ previous depth place,
    (∀ i, indexFrom? accepts previous depth place t = some i →
      place ≤ i ∧ t.take (i - place) = upTo accepts previous depth t) ∧
    (indexFrom? accepts previous depth place t = none → t = upTo accepts previous depth t) := by
  induction t with
  | nil =>
    intro previous depth place
    simp [indexFrom?, upTo]
  | cons c rest ih =>
    intro previous depth place
    obtain ⟨hsome, hnone⟩ := ih (some c) (depthAfter previous depth c) (place + 1)
    unfold indexFrom? upTo
    by_cases hc : (!isOpener c && !isCloser previous c && depth == 0 && accepts previous c rest.head?) = true
    · rw [if_pos hc, if_pos hc]
      refine ⟨?_, by simp⟩
      rintro i ⟨⟩
      simp
    · rw [if_neg hc, if_neg hc]
      refine ⟨fun i hi => ?_, fun h => by rw [← hnone h]⟩
      obtain ⟨hle, htake⟩ := hsome i hi
      obtain ⟨k, rfl⟩ : ∃ k, i = place + 1 + k := ⟨i - (place + 1), by omega⟩
      have hk : place + 1 + k - place = k + 1 := by omega
      have hk' : place + 1 + k - (place + 1) = k := by omega
      rw [hk'] at htake
      refine ⟨by omega, ?_⟩
      rw [hk, List.take_succ_cons, htake]

/-- A test that no line end, space or tab passes, and that does not tell one from another in front. -/
structure Blind (accepts : PlaceTest) : Prop where
  rejects : ∀ previous ch next, Text.isBreak ch = true → accepts previous ch next = false
  fresh : ∀ previous ch next, Fresh previous → accepts previous ch next = accepts none ch next

theorem upTo_fresh {accepts : PlaceTest} (haccepts : Blind accepts) (h : Fresh previous) (depth : Nat) (t : Text) :
    upTo accepts previous depth t = upTo accepts none depth t := by
  cases t with
  | nil => rfl
  | cons c rest =>
    simp only [upTo, h.isCloser_eq, h.depthAfter_eq, haccepts.fresh previous c rest.head? h]

/-- One more gap does not move the first accepted place: what stands in front of it is the same, or has the gap. -/
theorem upTo_widened {accepts : PlaceTest} (haccepts : Blind accepts) (hgap : Text.isBreak gap = true) (back : Text)
    (front : Text) : ∀ previous depth, (∀ ch ∈ front.getLast?, Text.isBreak ch = true) →
      (front = [] → Fresh previous) →
      upTo accepts previous depth (front ++ gap :: back) = upTo accepts previous depth (front ++ back) ∨
        ∃ rest, upTo accepts previous depth (front ++ gap :: back) = front ++ gap :: rest ∧
          upTo accepts previous depth (front ++ back) = front ++ rest := by
  induction front with
  | nil =>
    intro previous depth _ hfresh
    obtain ⟨-, hplain, hgapFresh⟩ := Text.isBreak_spec hgap
    refine Or.inr ⟨upTo accepts none depth back, ?_, ?_⟩
    · simp only [List.nil_append, upTo, haccepts.rejects previous gap _ hgap, Bool.and_false, Bool.false_eq_true,
        if_false, hplain.depthAfter_eq, upTo_fresh haccepts hgapFresh]
    · rw [List.nil_append, List.nil_append, upTo_fresh haccepts (hfresh rfl)]
  | cons z front ih =>
    intro previous depth hlast _
    obtain ⟨hlast', hfresh⟩ := fresh_of_last hlast
    -- the next character is the same, or is not looked at
    have hnext : accepts previous z (front ++ gap :: back).head? = accepts previous z (front ++ back).head? := by
      cases front with
      | nil => rw [haccepts.rejects _ _ _ (hlast z rfl), haccepts.rejects _ _ _ (hlast z rfl)]
      | cons y rest => rfl
    simp only [List.cons_append, upTo, hnext]
    split
    · exact Or.inl rfl
    · rcases ih (some z) (depthAfter previous depth z) hlast' hfresh with heq | ⟨rest, hwide, hnarrow⟩
      · exact Or.inl (by rw [heq])
      · exact Or.inr ⟨rest, by rw [hwide], by rw [hnarrow]⟩

/-- **What stands in front of the first accepted place is the same, up to the gap.** -/
theorem upTo_spread {accepts : PlaceTest} {x y : Text} (haccepts : Blind accepts) (h : Text.Spread x y) :
    Text.Spread (upTo accepts none 0 x) (upTo accepts none 0 y) := by
  rcases h with rfl | ⟨w, rfl, rfl⟩
  · exact Or.inl rfl
  · rcases upTo_widened haccepts w.isBreak_gap w.back w.front none 0 w.isBreak_last fun _ => fresh_none with
      heq | ⟨rest, hwide, hnarrow⟩
    · exact Or.inl heq
    · exact Or.inr ⟨⟨w.front, w.gap, rest, w.isGap_gap, w.isBreak_last⟩, hwide, hnarrow⟩

theorem blind_isAssignment : Blind isAssignment where
  rejects := by
    intro previous ch next h
    have hch : ch ≠ '=' := by
      rintro rfl
      exact absurd h (by decide)
    simp [isAssignment, hch]
  fresh := fun previous ch next h => h.isAssignment_eq ch next

theorem blind_isColon : Blind isColon where
  rejects := by
    intro previous ch next h
    have hch : ch ≠ ':' := by
      rintro rfl
      exact absurd h (by decide)
    simp [isColon, hch]
  fresh := fun _ _ _ _ => rfl

end Brackets


/-! ## Blanks around the gap -/

namespace Text

variable {x y : Text}

/-- The first text is the second one, or the second one with one more gap between characters that are no blanks. -/
def Inner (x y : Text) : Prop :=
  x = y ∨ ∃ w : Widening, x = w.wide ∧ y = w.narrow ∧ (∃ ch ∈ w.front, isBlank ch = false) ∧
    ∃ ch ∈ w.back, isBlank ch = false

/-- **A gap at either end is cut off, and any other one stays inside.** -/
theorem inner_trim (h : Spread x y) : Inner (trim x) (trim y) := by
  rcases h with rfl | ⟨w, rfl, rfl⟩
  · exact Or.inl rfl
  have hgap : isBlank w.gap = true := (isBreak_spec w.isBreak_gap).1
  have hcons : w.front ++ w.gap :: w.back = (w.front ++ [w.gap]) ++ w.back := by simp
  by_cases hfront : ∃ ch ∈ w.front, isBlank ch = false
  · by_cases hback : ∃ ch ∈ w.back, isBlank ch = false
    · have hleft := trimLeft_ne_nil_iff.2 hfront
      have hright := trimRight_ne_nil_iff.2 hback
      have hlast : ∀ ch ∈ (trimLeft w.front).getLast?, isBreak ch = true :=
        w.isBreak_suffix (List.dropWhile_suffix _)
      refine Or.inr ⟨⟨trimLeft w.front, w.gap, trimRight w.back, w.isGap_gap, hlast⟩, ?_, ?_, ?_, ?_⟩
      · rw [trim, Widening.wide, trimLeft_append_of_ne_nil hleft,
          show trimLeft w.front ++ w.gap :: w.back = (trimLeft w.front ++ [w.gap]) ++ w.back by simp,
          trimRight_append_of_ne_nil hright]
        simp [Widening.wide]
      · rw [trim, Widening.narrow, trimLeft_append_of_ne_nil hleft, trimRight_append_of_ne_nil hright]
        rfl
      · obtain ⟨ch, hch, hblank⟩ := hfront
        exact ⟨ch, mem_trimLeft_of_mem hblank hch, hblank⟩
      · obtain ⟨ch, hch, hblank⟩ := hback
        exact ⟨ch, mem_trimRight_of_mem hblank hch, hblank⟩
    · -- nothing but blanks comes behind
      have hblank : ∀ ch ∈ w.back, isBlank ch = true := by simpa using hback
      have hblank' : ∀ ch ∈ w.gap :: w.back, isBlank ch = true := by
        intro ch hch
        rcases List.mem_cons.1 hch with rfl | hch
        · exact hgap
        · exact hblank ch hch
      have hright := trimLeft_ne_nil_iff.2 hfront
      left
      rw [trim, trim, Widening.wide, Widening.narrow, trimLeft_append_of_ne_nil hright,
        trimLeft_append_of_ne_nil hright, trimRight_append hblank', trimRight_append hblank]
  · -- nothing but blanks comes in front
    have hblank : ∀ ch ∈ w.front, isBlank ch = true := by simpa using hfront
    have hblank' : ∀ ch ∈ w.front ++ [w.gap], isBlank ch = true := by
      intro ch hch
      rcases List.mem_append.1 hch with hch | hch
      · exact hblank ch hch
      · rw [List.mem_singleton.1 hch]
        exact hgap
    left
    rw [trim, trim, Widening.wide, Widening.narrow, hcons, trimLeft_append hblank', trimLeft_append hblank]

/-- The characters that are no blanks are the same. -/
theorem Spread.forall_isBlank_iff (h : Spread x y) :
    (∀ ch ∈ x, isBlank ch = true) ↔ ∀ ch ∈ y, isBlank ch = true := by
  rcases h with rfl | ⟨w, rfl, rfl⟩
  · rfl
  · unfold Widening.wide Widening.narrow
    rw [List.forall_mem_append, List.forall_mem_append, List.forall_mem_cons, (isBreak_spec w.isBreak_gap).1]
    simp

/-- There are no words only among blanks. -/
theorem words_eq_nil_iff (t : Text) : words t = [] ↔ ∀ ch ∈ t, isBlank ch = true := by
  induction t with
  | nil => simp [words, splitWhen]
  | cons ch t ih =>
    by_cases hblank : isBlank ch = true
    · have hwords : words (ch :: t) = words t := by
        simpa [words, splitWhen] using words_append hblank [] t
      rw [hwords, ih]
      simp [hblank]
    · obtain ⟨piece, pieces, hpieces⟩ := List.exists_cons_of_ne_nil (splitWhen_ne_nil isBlank t)
      rw [words, splitWhen, hpieces]
      simp [hblank]

/-- A text with a line end, a space or a tab in it. -/
def Broken (x : Text) : Prop :=
  ∃ ch ∈ x, isBreak ch = true

theorem broken_of_front (w : Widening) (h : w.front ≠ []) : Broken w.wide ∧ Broken w.narrow := by
  have hlast := List.getLast?_eq_some_getLast h
  have hmem := List.mem_of_getLast? hlast
  exact ⟨⟨_, List.mem_append_left _ hmem, w.isBreak_last _ hlast⟩,
    ⟨_, List.mem_append_left _ hmem, w.isBreak_last _ hlast⟩⟩

theorem Inner.eq_or_broken (h : Inner x y) : x = y ∨ Broken x ∧ Broken y := by
  rcases h with rfl | ⟨w, rfl, rfl, ⟨ch, hch, -⟩, -⟩
  · exact Or.inl rfl
  · exact Or.inr (broken_of_front w (List.ne_nil_of_mem hch))

/-- A text with no break but at its end starts a longer one within the first break of that. -/
theorem prefix_append_iff {m front : Text} (hm : ∀ ch ∈ m.dropLast, isBreak ch = false) (hne : front ≠ [])
    (hlast : ∀ ch ∈ front.getLast?, isBreak ch = true) (t : Text) : m <+: front ++ t ↔ m <+: front := by
  refine ⟨fun h => ?_, fun h => h.trans (List.prefix_append front t)⟩
  rcases Nat.lt_or_ge front.length m.length with hlt | hle
  · -- the break at the end of the front would stand inside of the other text
    obtain ⟨rest, rfl⟩ := List.prefix_of_prefix_length_le (List.prefix_append front t) h (Nat.le_of_lt hlt)
    have hrest : rest ≠ [] := by
      rintro rfl
      simp at hlt
    have hmem : front.getLast hne ∈ (front ++ rest).dropLast := by
      rw [List.dropLast_append_of_ne_nil hrest]
      exact List.mem_append_left _ (List.getLast_mem hne)
    have hbreak := hlast _ (List.getLast?_eq_some_getLast hne)
    rw [hm _ hmem] at hbreak
    exact absurd hbreak (by simp)
  · exact List.prefix_of_prefix_length_le h (List.prefix_append front t) hle

end Text

/-! ## Parameters -/

namespace Param

open Brackets

variable {language : Language} {x y : Text}

theorem cutDefault_fst (part : Text) : (cutDefault part).1 = upTo isAssignment none 0 part := by
  obtain ⟨hsome, hnone⟩ := indexFrom?_upTo isAssignment part none 0 0
  unfold cutDefault
  cases h : index? isAssignment part with
  | some i => exact (hsome i h).2
  | none => exact hnone h

theorem cutType_fst (head : Text) : (cutType head).1 = Text.trim (upTo isColon none 0 head) := by
  obtain ⟨hsome, hnone⟩ := indexFrom?_upTo isColon head none 0 0
  unfold cutType
  cases h : index? isColon head with
  | some i => exact congrArg Text.trim (hsome i h).2
  | none => exact congrArg Text.trim (hnone h)

/-- A name without one of its modifiers. -/
def withoutModifier (name modifier : Text) : Text :=
  if modifier.isPrefixOf name then Text.trim (name.drop modifier.length) else name

theorem inner_withoutModifier {modifier : Text} (hm : ∀ ch ∈ modifier.dropLast, Text.isBreak ch = false)
    (h : Text.Inner x y) : Text.Inner (withoutModifier x modifier) (withoutModifier y modifier) := by
  rcases h with rfl | ⟨w, rfl, rfl, ⟨ch, hch, hblank⟩, hback⟩
  · exact Or.inl rfl
  have hne := List.ne_nil_of_mem hch
  unfold withoutModifier Widening.wide Widening.narrow
  simp only [List.isPrefixOf_iff_prefix, Text.prefix_append_iff hm hne w.isBreak_last]
  by_cases hstarts : modifier <+: w.front
  · rw [if_pos hstarts, if_pos hstarts, List.drop_append_of_le_length hstarts.length_le,
      List.drop_append_of_le_length hstarts.length_le]
    exact Text.inner_trim (Or.inr ⟨⟨w.front.drop modifier.length, w.gap, w.back, w.isGap_gap,
      w.isBreak_suffix (List.drop_suffix _ _)⟩, rfl, rfl⟩)
  · rw [if_neg hstarts, if_neg hstarts]
    exact Or.inr ⟨w, rfl, rfl, ⟨ch, hch, hblank⟩, hback⟩

theorem bareName_spread (h : Text.Inner x y) :
    bareName x = bareName y ∨ Text.Broken (bareName x) ∧ Text.Broken (bareName y) := by
  have hmodifiers : ∀ m ∈ modifiers, Text.isUnbroken m.dropLast = true := by
    decide
  have hfold : ∀ (ms : List Text), (∀ m ∈ ms, m ∈ modifiers) → ∀ {x y : Text}, Text.Inner x y →
      Text.Inner (ms.foldl withoutModifier x) (ms.foldl withoutModifier y) := by
    intro ms
    induction ms with
    | nil => exact fun _ _ _ h => h
    | cons m ms ih =>
      intro hms x y h
      have hm := Text.isUnbroken_spec (hmodifiers m (hms m List.mem_cons_self))
      exact ih (fun m' hm' => hms m' (List.mem_cons_of_mem m hm')) (inner_withoutModifier hm h)
  have hkept : ∀ {t : Text}, Text.Broken t → Text.Broken (t.reverse.dropWhile (· == '?')).reverse := by
    rintro t ⟨ch, hch, hbreak⟩
    have hmark : (ch == '?') = false := by
      rw [beq_eq_false_iff_ne]
      rintro rfl
      exact absurd hbreak (by decide)
    exact ⟨ch, List.mem_reverse.2 (Text.mem_dropWhile_of_mem hmark (List.mem_reverse.2 hch)), hbreak⟩
  rcases (hfold modifiers (fun _ hm => hm) h).eq_or_broken with heq | ⟨hx, hy⟩
  · exact Or.inl (congrArg (fun t : Text => (t.reverse.dropWhile (· == '?')).reverse) heq)
  · exact Or.inr ⟨hkept hx, hkept hy⟩

/-- The name that a declaration starts with. -/
def nameOf (language : Language) (part : Text) : Text :=
  let name := (cutType (cutDefault part).1).1
  if language.hasTypes then bareName name else name

theorem nameOf_spread (language : Language) (h : Text.Spread x y) :
    nameOf language x = nameOf language y ∨ Text.Broken (nameOf language x) ∧ Text.Broken (nameOf language y) := by
  have hname : Text.Inner (cutType (cutDefault x).1).1 (cutType (cutDefault y).1).1 := by
    rw [cutDefault_fst, cutDefault_fst, cutType_fst, cutType_fst]
    exact Text.inner_trim (upTo_spread blind_isColon (upTo_spread blind_isAssignment h))
  unfold nameOf
  by_cases htypes : language.hasTypes = true
  · simp only [if_pos htypes]
    exact bareName_spread hname
  · simp only [if_neg htypes]
    exact hname.eq_or_broken

/-- A name that declares no parameter. -/
def isMark (language : Language) (name : Text) : Bool :=
  name.isEmpty || name == ['*'] || name == ['/'] || isReceiver language name

theorem isMark_of_broken {name : Text} (h : Text.Broken name) : isMark language name = false := by
  obtain ⟨ch, hch, hbreak⟩ := h
  have hne : ∀ {t : Text}, t.isUnbroken = true → name ≠ t := by
    rintro t ht rfl
    rw [Text.isUnbroken_spec ht ch hch] at hbreak
    exact absurd hbreak (by simp)
  have hempty : name ≠ [] := hne (by decide)
  have hstar : name ≠ ['*'] := hne (by decide)
  have hslash : name ≠ ['/'] := hne (by decide)
  have hself : name ≠ "self".toList := hne (by decide)
  have hcls : name ≠ "cls".toList := hne (by decide)
  rw [isMark, isReceiver, beq_eq_false_iff_ne.2 hstar, beq_eq_false_iff_ne.2 hslash, beq_eq_false_iff_ne.2 hself,
    beq_eq_false_iff_ne.2 hcls, List.isEmpty_eq_false_iff.2 hempty]
  simp

theorem isSome_ofNameFirst? (language : Language) (part : Text) :
    ((ofNameFirst? language part).filter fun p => !isReceiver language p.name).isSome
      = !isMark language (nameOf language part) := by
  have hfirst : ofNameFirst? language part
      = if (nameOf language part).isEmpty || nameOf language part == ['*'] || nameOf language part == ['/'] then none
        else some ⟨nameOf language part, (cutType (cutDefault part).1).2, (cutDefault part).2⟩ := rfl
  rw [hfirst, isMark]
  by_cases hmark : ((nameOf language part).isEmpty || nameOf language part == ['*']
      || nameOf language part == ['/']) = true
  · rw [if_pos hmark, hmark]
    rfl
  · rw [if_neg hmark, Bool.eq_false_iff.2 hmark, Option.filter_some]
    cases isReceiver language (nameOf language part) <;> rfl

theorem isSome_ofTypeFirst? (part : Text) :
    (ofTypeFirst? part).isSome = !(Text.words (cutDefault part).1).isEmpty := by
  unfold ofTypeFirst?
  generalize cutDefault part = cut
  rw [← List.isEmpty_reverse]
  cases h : (Text.words cut.1).reverse <;> simp [h]

/-- What is not blank declares a parameter with one more gap in it or without. -/
theorem isSome_declared_spread (language : Language) (h : Text.Spread x y) :
    ((if language.typeFirst then ofTypeFirst? x else ofNameFirst? language x).filter
        fun p => !isReceiver language p.name).isSome
      = ((if language.typeFirst then ofTypeFirst? y else ofNameFirst? language y).filter
        fun p => !isReceiver language p.name).isSome := by
  by_cases hfirst : language.typeFirst = true
  · -- a language with types in front has no receivers
    have hreceiver : ∀ name, isReceiver language name = false := by
      intro name
      cases language <;> first | rfl | exact absurd hfirst (by decide)
    have hfilter : ∀ o : Option Param, (o.filter fun p => !isReceiver language p.name) = o := by
      intro o
      cases o <;> simp [hreceiver]
    rw [if_pos hfirst, if_pos hfirst, hfilter, hfilter, isSome_ofTypeFirst?, isSome_ofTypeFirst?, cutDefault_fst,
      cutDefault_fst]
    have hiff := (upTo_spread blind_isAssignment h).forall_isBlank_iff
    rw [← Text.words_eq_nil_iff, ← Text.words_eq_nil_iff, ← List.isEmpty_iff, ← List.isEmpty_iff] at hiff
    rw [Bool.eq_iff_iff.2 hiff]
  · rw [if_neg hfirst, if_neg hfirst, isSome_ofNameFirst?, isSome_ofNameFirst?]
    rcases nameOf_spread language h with heq | ⟨hx, hy⟩
    · rw [heq]
    · rw [isMark_of_broken hx, isMark_of_broken hy]

/-- **A piece of a list declares a parameter with one more gap in it or without.** -/
theorem isSome_ofPart?_spread (language : Language) (h : Text.Spread x y) :
    (ofPart? language x).isSome = (ofPart? language y).isSome := by
  unfold ofPart?
  rcases Text.inner_trim h with heq | ⟨w, hx, hy, ⟨ch, hch, -⟩, -⟩
  · rw [heq]
  · have hwide : w.wide.isEmpty = false := List.isEmpty_eq_false_iff.2 (List.ne_nil_of_mem (List.mem_append_left _ hch))
    have hnarrow : w.narrow.isEmpty = false :=
      List.isEmpty_eq_false_iff.2 (List.ne_nil_of_mem (List.mem_append_left _ hch))
    simp only [hx, hy, hwide, hnarrow, Bool.false_eq_true, if_false]
    exact isSome_declared_spread language (Or.inr ⟨w, rfl, rfl⟩)

/-- **A list declares as many parameters with one more gap in it.** -/
theorem length_parseAll_spread (language : Language) (h : Text.Spread x y) :
    (parseAll language x).length = (parseAll language y).length := by
  rcases h with rfl | ⟨w, rfl, rfl⟩
  · rfl
  obtain ⟨done, v, pieces, hwide, hnarrow⟩ := split_widened w
  have hmiddle := isSome_ofPart?_spread language (Or.inr ⟨v, rfl, rfl⟩ : Text.Spread v.wide v.narrow)
  have hlength : ∀ t : Text, ((done ++ t :: pieces).filterMap (ofPart? language)).length
      = (done.filterMap (ofPart? language)).length + (if (ofPart? language t).isSome then 1 else 0)
        + (pieces.filterMap (ofPart? language)).length := by
    intro t
    rw [List.filterMap_append, List.length_append, List.filterMap_cons]
    cases ofPart? language t with
    | none => simp
    | some p =>
      simp only [List.length_cons, Option.isSome_some, if_true]
      omega
  rw [parseAll, parseAll, hwide, hnarrow, hlength, hlength, hmiddle]

end Param

end CodeSurvey
