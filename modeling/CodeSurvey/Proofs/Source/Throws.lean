import CodeSurvey.Grammar.Typed
import CodeSurvey.Proofs.Pattern.Stops
import CodeSurvey.Proofs.Pattern.Unnoticed
import CodeSurvey.Proofs.Text.Reindented

/-!
# Where a gap is noticed

The signature of a method may name exceptions behind the word `throws`. The pattern asks for blanks, and then for at
least one character of a name, a comma or a blank. With no name at all, the blanks in front of the brace have to do for
both, and then there must be two of them. So a gap is noticed where there is one blank, between `throws` and the brace,
and nowhere else.

* `Text.AwaitsBrace`: one blank between `throws` and the brace.
* `tame_anyListed`, `rel_blanks_brace`: the list of exceptions, with a brace behind the gap and without.
* `agree_javaFunction`: a signature reads alike with one more gap anywhere else.
* `forall₂_javaFunction`: so the same methods are found.
-/

namespace CodeSurvey

/-- The first text ends in `throws` and one more character, and the second starts with a brace. -/
def Text.AwaitsBrace (x y : Text) : Prop :=
  (∃ a z, x = a ++ "throws".toList ++ [z]) ∧ y.head? = some '{'

/-- It matters there only whether there is a gap at all. -/
theorem Text.barred_awaitsBrace : Text.Barred Text.AwaitsBrace where
  behind := by
    rintro x y ⟨-, hbrace⟩ ch hch
    obtain rfl := Option.some.inj (hbrace.symm.trans hch)
    decide
  inFront := by
    rintro x v y ⟨⟨a, z, hend⟩, -⟩ hv hx
    rcases List.eq_nil_or_concat v with hnil | ⟨init, g, rfl⟩
    · exact hnil
    -- the letter in front of the last character would have to be a gap or a break
    rw [List.concat_eq_append, ← List.append_assoc] at hend
    have hlast : (x ++ init).getLast? = some 's' := by
      rw [(List.append_inj' hend rfl).1, List.getLast?_append]
      rfl
    rcases List.eq_nil_or_concat init with rfl | ⟨init', g', rfl⟩
    · rw [List.append_nil] at hlast
      exact absurd (hx 's' hlast) (by decide)
    · rw [List.concat_eq_append, ← List.append_assoc, List.getLast?_concat, Option.some.injEq] at hlast
      have hgap := hv g' (by simp)
      rw [hlast] at hgap
      exact absurd hgap (by decide)

namespace Grammar.Typed

open Pattern

/-- A character of the list of exceptions. -/
def isListed (ch : Char) : Bool :=
  isDottedRest ch || ch == ',' || Text.isBlank ch

/-- The brace that opens the body comes next. -/
def bodyNext : Pattern :=
  blanks ++ lit "\x7b"

/-- The signature up to the bracket that closes the parameters. -/
def javaHead : Pattern :=
  modifiers ["public", "private", "protected", "static", "final", "abstract", "synchronized",
      "native", "default"]
    ++ group ⟨"rtype", "_a"⟩ typeName ++ someGap ++ group ⟨"name", "_a"⟩ name ++ blanks
    ++ lit "(" ++ group ⟨"params", "_a"⟩ paramText ++ lit ")"

theorem javaFunction_eq : javaFunction = javaHead
    ++ opt (blanks ++ lit "throws" ++ someBlanks ++ plusFew (one isListed)) ++ ahead bodyNext :=
  rfl

variable {w : Widening} {limit limit' : Nat} {α β : Type} {R : β → α → Prop}
variable {wide : Reading → Option β} {narrow : Reading → Option α} {s r : Reading}

/-! ## The brace -/

/-- Whether the brace comes next. -/
def opensNext (limit : Nat) (r : Reading) : Bool :=
  (bodyNext.run limit (fun _ => some ()) r).isSome

theorem run_lit_brace (limit : Nat) (accept : Reading → Option α) (r : Reading) : (lit "\x7b").run limit accept r
    = if r.cursor.nextIs ('{' == ·) then accept ⟨r.cursor.advance 1, r.captures⟩ else none := by
  have htext : lit "\x7b" = text ['{'] := congrArg text (by decide)
  rw [htext, run_text_cons, run_one]
  rfl

theorem nextIs_brace_of_blank {c : Cursor} (h : c.nextIs Text.isBlank = true) : c.nextIs ('{' == ·) = false := by
  unfold Cursor.nextIs at h ⊢
  cases hafter : c.after with
  | nil => rfl
  | cons x rest =>
    rw [hafter] at h
    have hblank : Text.isBlank x = true := h
    have hx : '{' ≠ x := by
      rintro rfl
      exact absurd hblank (by decide)
    exact beq_false_of_ne hx

/-- A blank in front does not matter. -/
theorem opensNext_blank (h : r.cursor.nextIs Text.isBlank = true) :
    opensNext limit r = opensNext limit ⟨r.cursor.advance 1, r.captures⟩ := by
  have hunroll : bodyNext.run limit (fun _ => some ()) r
      = (bodyNext.run limit (fun _ => some ()) ⟨r.cursor.advance 1, r.captures⟩).or
          ((lit "\x7b").run limit (fun _ => some ()) r) :=
    (run_span limit Text.isBlank _ r).trans (if_pos h)
  rw [opensNext, opensNext, hunroll, run_lit_brace, nextIs_brace_of_blank h, if_neg (by simp), Option.or_none]

/-- Without a blank in front, the brace must be there. -/
theorem opensNext_other (h : r.cursor.nextIs Text.isBlank = false) :
    opensNext limit r = r.cursor.nextIs ('{' == ·) := by
  have hstay : bodyNext.run limit (fun _ => some ()) r = (lit "\x7b").run limit (fun _ => some ()) r :=
    (run_span limit Text.isBlank _ r).trans (if_neg (by simp [h]))
  rw [opensNext, hstay, run_lit_brace]
  cases r.cursor.nextIs ('{' == ·) <;> rfl

theorem isListed_of_isBlank {ch : Char} (h : Text.isBlank ch = true) : isListed ch = true := by
  rw [isListed, h, Bool.or_true]

theorem nextIs_mono {accepts accepts' : Char → Bool} {c : Cursor} (h : ∀ ch, accepts ch = true → accepts' ch = true)
    (hc : c.nextIs accepts = true) : c.nextIs accepts' = true := by
  unfold Cursor.nextIs at hc ⊢
  cases hafter : c.after with
  | nil => simp [hafter] at hc
  | cons x rest =>
    rw [hafter] at hc
    exact h x hc

theorem nextIs_of_head {c : Cursor} {ch : Char} (accepts : Char → Bool) (h : c.after.head? = some ch) :
    c.nextIs accepts = accepts ch := by
  unfold Cursor.nextIs
  cases hafter : c.after with
  | nil => simp [hafter] at h
  | cons x rest =>
    rw [hafter, List.head?_cons, Option.some.injEq] at h
    rw [h]

/-! ## The exceptions -/

/-- What is made of the end of the list: the brace must come next. -/
def atBody (limit : Nat) (accept : Reading → Option α) : Reading → Option α :=
  (ahead bodyNext).run limit accept

/-- What is made of a list of which something is read. -/
def moreListed (limit : Nat) (accept : Reading → Option α) : Reading → Option α :=
  (many .shortest (one isListed)).run limit (atBody limit accept)

/-- What is made of a list of which nothing is read. -/
def anyListed (limit : Nat) (accept : Reading → Option α) : Reading → Option α :=
  (one isListed).run limit (moreListed limit accept)

theorem isSome_atBody {accept : Reading → Option α} (haccept : ∀ r, (accept r).isSome = true) (r : Reading) :
    (atBody limit accept r).isSome = opensNext limit r := by
  unfold atBody opensNext
  rw [run]
  by_cases h : (bodyNext.run limit (fun _ => some ()) r).isSome = true
  · rw [if_pos h, h]
    exact haccept r
  · rw [if_neg h, Bool.eq_false_iff.2 h]
    rfl

theorem moreListed_eq {accept : Reading → Option α} (hr : r.cursor.after.length ≤ limit) :
    moreListed limit accept r = (atBody limit accept r).or (anyListed limit accept r) :=
  run_many (by decide) .shortest _ hr

theorem anyListed_eq {accept : Reading → Option α} (h : r.cursor.nextIs isListed = true) :
    anyListed limit accept r = moreListed limit accept ⟨r.cursor.advance 1, r.captures⟩ := by
  rw [anyListed, run_one, if_pos h]

/-- The gap is one of the blanks of the list. -/
theorem anyListed_seam (hmeets : w.Meets s.cursor r.cursor) :
    anyListed limit wide s = moreListed limit wide ⟨s.cursor.advance 1, s.captures⟩ := by
  apply anyListed_eq
  rw [hmeets.nextIs_eq]
  exact acceptsGaps_spec (by decide) w

/-- The front of the text if a word and one more character lead to the seam. -/
theorem exists_front_eq {x : Text} {accepts : Char → Bool} {c : Cursor} (hword : x.reverse <+: s.cursor.before)
    (hnext : s.cursor.nextIs accepts = true) (hmeets : w.Meets (s.cursor.advance 1) c) :
    ∃ a z, w.front = a ++ x ++ [z] := by
  obtain ⟨a, ha⟩ := hword
  have hbefore := hmeets.before_wide
  rw [Cursor.advance_before, ← ha] at hbefore
  unfold Cursor.nextIs at hnext
  cases hafter : s.cursor.after with
  | nil => simp [hafter] at hnext
  | cons z rest =>
    refine ⟨a.reverse, z, ?_⟩
    rw [hafter] at hbefore
    have hreverse := congrArg List.reverse hbefore
    simpa using hreverse.symm

/-- Readings are accepted only behind a word. -/
def behindWord (x : Text) (accept : Reading → Option α) (r : Reading) : Option α :=
  if x.reverse <+: r.cursor.before then accept r else none

theorem run_behindWord (limit : Nat) (x : Text) (accept : Reading → Option α) :
    (text x).run limit (behindWord x accept) = (text x).run limit accept := by
  funext r
  apply run_congr
  intro u hu
  obtain ⟨hstarts, rfl⟩ := mem_outcomes_text.1 hu
  refine if_pos ?_
  show x.reverse <+: (r.cursor.after.take x.length).reverse ++ r.cursor.before
  rw [← List.prefix_iff_eq_take.1 hstarts]
  exact List.prefix_append _ _

section Gap

variable (hlimit' : w.wide.length ≤ limit') (hlimit : w.narrow.length ≤ limit) (h : Agree w R .even wide narrow)
  (htotal : ∀ r, (narrow r).isSome = true)

include hlimit' hlimit h

theorem agree_moreListed : Agree w R .even (moreListed limit' wide) (moreListed limit narrow) := by
  have hbody : Agree w R .even (atBody limit' wide) (atBody limit narrow) :=
    settle_sound hlimit' hlimit (ahead bodyNext) (by decide) h
  exact settle_sound hlimit' hlimit (many .shortest (one isListed)) (by decide) hbody

theorem agree_anyListed : Agree w R .free (anyListed limit' wide) (anyListed limit narrow) :=
  settle_sound hlimit' hlimit (one isListed) (by decide) (agree_moreListed hlimit' hlimit h)

/-- With the gap read as the first character of a list, what is left is the same. -/
theorem rel_anyListed_seam (hmeets : w.Meets s.cursor r.cursor) (hkeeps : w.Keeps s.captures r.captures) :
    Option.Rel R (anyListed limit' wide s) (moreListed limit narrow r) := by
  have hrel : Option.Rel R (moreListed limit' wide ⟨s.cursor.advance 1, s.captures⟩) (moreListed limit narrow r) :=
    (agree_moreListed hlimit' hlimit h).apart hmeets.advance hkeeps
  rwa [anyListed_seam hmeets]

include htotal

/-- Unless a brace comes behind the gap, a list can start at the seam only if one can start without the gap. -/
theorem tame_anyListed (hback : w.back.head? ≠ some '{') :
    Agree w R .tame (anyListed limit' wide) (anyListed limit narrow) := by
  refine ⟨(agree_anyListed hlimit' hlimit h).apart, ?_⟩
  intro s r hmeets hkeeps hsome
  have hroom := Widening.Near.length_le (Or.inr hmeets)
  -- something is read behind the gap, and so it is without the gap
  have hmore : (moreListed limit narrow r).isSome = true := by
    rwa [← Known.isSome_of_rel (rel_anyListed_seam hlimit' hlimit h hmeets hkeeps)]
  rw [moreListed_eq (by omega), Option.isSome_or, Bool.or_eq_true, isSome_atBody htotal] at hmore
  rcases hmore with hopens | hlisted
  · by_cases hblank : r.cursor.nextIs Text.isBlank = true
    · -- a blank of the text does for the list
      rw [anyListed_eq (nextIs_mono (fun _ => isListed_of_isBlank) hblank), moreListed_eq, Option.isSome_or,
        isSome_atBody htotal, ← opensNext_blank hblank, hopens, Bool.true_or]
      rw [Cursor.advance_after, List.length_drop]
      omega
    · rw [opensNext_other (Bool.eq_false_iff.2 hblank)] at hopens
      unfold Cursor.nextIs at hopens
      rw [hmeets.after_narrow] at hopens
      cases hafter : w.back with
      | nil => simp [hafter] at hopens
      | cons x rest =>
        rw [hafter] at hopens
        have hx : '{' = x := eq_of_beq hopens
        rw [hafter, ← hx] at hback
        exact absurd (List.head?_cons) hback
  · exact hlisted

/-- In front of a brace, the gap is read as the list if there is a blank in front of it, and without the gap that blank
is. -/
theorem rel_blanks_seam (hback : w.back.head? = some '{')
    (hmeets : w.Meets (s.cursor.advance 1) (r.cursor.advance 1)) (hkeeps : w.Keeps s.captures r.captures)
    (hnext : r.cursor.nextIs Text.isBlank = true) :
    Option.Rel R
      (((span Text.isBlank).run limit' (anyListed limit' wide) ⟨s.cursor.advance 1, s.captures⟩).or
        (anyListed limit' wide s))
      (((span Text.isBlank).run limit (anyListed limit narrow) ⟨r.cursor.advance 1, r.captures⟩).or
        (anyListed limit narrow r)) := by
  have hroom := Widening.Near.length_le (Or.inr hmeets)
  have hnarrow : ∀ accepts, (r.cursor.advance 1).nextIs accepts = accepts '{' := fun accepts =>
    nextIs_of_head accepts (hmeets.after_narrow ▸ hback)
  have hwide : ∀ accepts, ((s.cursor.advance 1).advance 1).nextIs accepts = accepts '{' := fun accepts =>
    (hmeets.advance.nextIs_eq accepts).trans (hnarrow accepts)
  have hgap : Text.isBlank w.gap = true := acceptsGaps_spec (by decide) w
  -- a brace is no part of the list
  have hseam : (span Text.isBlank).run limit' (anyListed limit' wide) ⟨s.cursor.advance 1, s.captures⟩
      = anyListed limit' wide ⟨s.cursor.advance 1, s.captures⟩ := by
    rw [run_span, hmeets.nextIs_eq, if_pos hgap, run_span, hwide, if_neg (by decide), anyListed, run_one, hwide,
      if_neg (by decide)]
    rfl
  have hstay : (span Text.isBlank).run limit (anyListed limit narrow) ⟨r.cursor.advance 1, r.captures⟩ = none := by
    rw [run_span, hnarrow, if_neg (by decide), anyListed, run_one, hnarrow, if_neg (by decide)]
  have hlisted : anyListed limit narrow r = moreListed limit narrow ⟨r.cursor.advance 1, r.captures⟩ :=
    anyListed_eq (nextIs_mono (fun _ => isListed_of_isBlank) hnext)
  have hsome : (moreListed limit narrow ⟨r.cursor.advance 1, r.captures⟩).isSome = true := by
    have hlen : (r.cursor.advance 1).after.length ≤ limit := by omega
    rw [moreListed_eq hlen, Option.isSome_or, isSome_atBody htotal, opensNext_other (by rw [hnarrow]; decide), hnarrow]
    rfl
  rw [hseam, hstay, hlisted, Option.none_or]
  exact Known.rel_or_left (rel_anyListed_seam hlimit' hlimit h hmeets hkeeps) fun _ => hsome

/-- If a brace comes behind the gap, then the gap does for the list, or the blank in front of it. -/
theorem rel_blanks_brace (hback : w.back.head? = some '{') (hlies : w.Lies s.cursor r.cursor)
    (hkeeps : w.Keeps s.captures r.captures) :
    Option.Rel R ((span Text.isBlank).run limit' (anyListed limit' wide) s)
      ((span Text.isBlank).run limit (anyListed limit narrow) r) := by
  have hagree := agree_anyListed hlimit' hlimit h
  induction hlen : s.cursor.after.length using Nat.strongRecOn generalizing s r with
  | ind len ih =>
    rw [run_span, run_span limit Text.isBlank, hlies.nextIs_eq]
    by_cases hnext : r.cursor.nextIs Text.isBlank = true
    · rw [if_pos hnext, if_pos hnext]
      have hnext' : s.cursor.nextIs Text.isBlank = true := (hlies.nextIs_eq _).trans hnext
      rcases hlies.advance hnext' with hlies' | ⟨hmeets, -⟩
      · have hshort := s.cursor.length_advance_lt hnext'
        exact Known.rel_or (ih _ (hlen ▸ hshort) hlies' hkeeps rfl) (hagree.apart hlies hkeeps)
      · exact rel_blanks_seam hlimit' hlimit h htotal hback hmeets hkeeps hnext
    · rw [if_neg hnext, if_neg hnext]
      exact hagree.apart hlies hkeeps

/-- What is made of the blanks behind `throws`. -/
theorem rel_someBlanks (hawaits : ¬ Text.AwaitsBrace w.front w.back)
    (hword : "throws".toList.reverse <+: s.cursor.before) (hlies : w.Lies s.cursor r.cursor)
    (hkeeps : w.Keeps s.captures r.captures) :
    Option.Rel R (someBlanks.run limit' (anyListed limit' wide) s) (someBlanks.run limit (anyListed limit narrow) r) := by
  by_cases hback : w.back.head? = some '{'
  · -- the first blank does not lead to the seam, and what is left is the same
    have hrun : ∀ {γ : Type} (l : Nat) (accept : Reading → Option γ) (u : Reading), someBlanks.run l accept u
        = if u.cursor.nextIs Text.isBlank then
            (span Text.isBlank).run l accept ⟨u.cursor.advance 1, u.captures⟩
          else none := fun l accept u => run_one l Text.isBlank _ u
    rw [hrun, hrun, hlies.nextIs_eq]
    by_cases hnext : r.cursor.nextIs Text.isBlank = true
    · rw [if_pos hnext, if_pos hnext]
      have hnext' : s.cursor.nextIs Text.isBlank = true := (hlies.nextIs_eq _).trans hnext
      rcases hlies.advance hnext' with hlies' | ⟨hmeets, -⟩
      · exact rel_blanks_brace hlimit' hlimit h htotal hback hlies' hkeeps
      · exact absurd ⟨exists_front_eq hword hnext' hmeets, hback⟩ hawaits
    · rw [if_neg hnext, if_neg hnext]
      exact .none
  · have hagree := settle_sound hlimit' hlimit someBlanks (by decide : someBlanks.settle .tame = some .free)
      (tame_anyListed hlimit' hlimit h htotal hback)
    exact hagree.apart hlies hkeeps

theorem agree_throws (hawaits : ¬ Text.AwaitsBrace w.front w.back) :
    Agree w R .quiet ((lit "throws").run limit' (someBlanks.run limit' (anyListed limit' wide)))
      ((lit "throws").run limit (someBlanks.run limit (anyListed limit narrow))) := by
  have hguarded : Agree w R .free
      (behindWord "throws".toList (someBlanks.run limit' (anyListed limit' wide)))
      (behindWord "throws".toList (someBlanks.run limit (anyListed limit narrow))) := by
    refine ⟨?_, fun _ _ => trivial⟩
    intro s r hlies hkeeps
    have hiff := hlies.prefix_before_iff (x := "throws".toList.reverse) (Text.isUnbroken_spec (by decide))
    unfold behindWord
    by_cases hword : "throws".toList.reverse <+: s.cursor.before
    · rw [if_pos hword, if_pos (hiff.1 hword)]
      exact rel_someBlanks hlimit' hlimit h htotal hawaits hword hlies hkeeps
    · rw [if_neg hword, if_neg fun h => hword (hiff.2 h)]
      exact .none
  rw [lit, ← run_behindWord limit', ← run_behindWord limit]
  exact settle_sound hlimit' hlimit (text "throws".toList) (by decide) hguarded

/-- **A signature reads alike with one more gap**, unless that is the second blank between `throws` and a brace. -/
theorem agree_javaFunction (hawaits : ¬ Text.AwaitsBrace w.front w.back) :
    Agree w R .quiet (javaFunction.run limit' wide) (javaFunction.run limit narrow) := by
  have hthrows := agree_throws hlimit' hlimit h htotal hawaits
  have hclause : Agree w R .even
      (blanks.run limit' ((lit "throws").run limit' (someBlanks.run limit' (anyListed limit' wide))))
      (blanks.run limit ((lit "throws").run limit (someBlanks.run limit (anyListed limit narrow)))) :=
    settle_sound hlimit' hlimit blanks (by decide) hthrows
  have hbody : Agree w R .even (atBody limit' wide) (atBody limit narrow) :=
    settle_sound hlimit' hlimit (ahead bodyNext) (by decide) h
  have hopt : Agree w R .even
      (fun s => (blanks.run limit' ((lit "throws").run limit' (someBlanks.run limit' (anyListed limit' wide))) s).or
        (atBody limit' wide s))
      (fun r => (blanks.run limit ((lit "throws").run limit (someBlanks.run limit (anyListed limit narrow))) r).or
        (atBody limit narrow r)) :=
    ⟨fun hlies hkeeps => Known.rel_or (hclause.apart hlies hkeeps) (hbody.apart hlies hkeeps),
      fun hmeets hkeeps => Known.rel_or (hclause.seam hmeets hkeeps) (hbody.seam hmeets hkeeps)⟩
  have hrun : ∀ {γ : Type} (l : Nat) (accept : Reading → Option γ), javaFunction.run l accept = javaHead.run l fun s =>
      (blanks.run l ((lit "throws").run l (someBlanks.run l (anyListed l accept))) s).or (atBody l accept s) := by
    intro γ l accept
    have htail : ∀ s, (opt (blanks ++ lit "throws" ++ someBlanks ++ plusFew (one isListed))).run l (atBody l accept) s
        = (blanks.run l ((lit "throws").run l (someBlanks.run l (anyListed l accept))) s).or (atBody l accept s) :=
      fun s => run_alt l _ _ _ s
    rw [javaFunction_eq, ← funext htail]
    rfl
  rw [hrun, hrun]
  exact settle_sound hlimit' hlimit javaHead (by decide) hopt

end Gap

/-- **The same methods are found with one more gap**, unless that is the second blank between `throws` and a brace. -/
theorem forall₂_javaFunction (hawaits : ¬ Text.AwaitsBrace w.front w.back) :
    List.Forall₂ w.Pairs (javaFunction.findAll w.wide) (javaFunction.findAll w.narrow) := by
  have hagree : ∀ {d c : Cursor}, w.Near d c → Agree w w.Pairs .quiet
      (javaFunction.run w.wide.length fun r => some ⟨d, r.cursor, r.captures⟩)
      (javaFunction.run w.narrow.length fun r => some ⟨c, r.cursor, r.captures⟩) := fun hnear =>
    agree_javaFunction (Nat.le_refl _) (Nat.le_refl _) (agree_match hnear) (fun _ => rfl) hawaits
  exact forall₂_findAll (by decide) (fun hlies => (hagree (Or.inl hlies)).apart hlies .nil)
    fun hmeets => (hagree (Or.inr hmeets)).seam (r := ⟨_, []⟩) hmeets .nil

end Grammar.Typed

end CodeSurvey
