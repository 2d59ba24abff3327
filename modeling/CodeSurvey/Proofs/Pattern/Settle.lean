import CodeSurvey.Proofs.Pattern.Seam

/-!
# Patterns that do not notice a gap

A pattern reads alike in a text and in the text with one more gap if it does not matter what happens at the seam. What
happens there is followed from the end of a pattern to its start. Nothing may be accepted at the seam, or what is
accepted in the other text, or nothing unless something is accepted in the other text as well. What each shape makes of
that can be computed.

* `Known`: what is known about the seam. `Agree`: two ways to accept a reading agree, up to what is known.
* `settle`: what a pattern makes of what is known, where it reads alike in both texts.
* `settle_sound`: such a pattern does read alike.
-/

namespace CodeSurvey

/-- What is known about the result at the seam, next to the result in the text without the gap. -/
inductive Known where
  /-- There is none. -/
  | quiet
  /-- It is the same. -/
  | even
  /-- There is none unless there is one in the other text. -/
  | tame
  /-- Nothing is known. -/
  | free
deriving DecidableEq, Repr

namespace Known

/-- Results at the seam are also results in the other text, or at least some result is. -/
def isTame : Known → Bool
  | free => false
  | _ => true

/-- What is known if there may be other results first in the text without the gap. -/
def lax : Known → Known
  | even => tame
  | known => known

/-- What is known of one result, or else another one. -/
def orElse : Known → Known → Known
  | quiet, quiet => quiet
  | even, even => even
  | first, second => if first.isTame && second.isTame then tame else free

/-- What is known, as a relation between the two results. -/
def Law {α β : Type} (R : β → α → Prop) : Known → Option β → Option α → Prop
  | quiet, wide, _ => wide = none
  | even, wide, narrow => Option.Rel R wide narrow
  | tame, wide, narrow => wide.isSome = true → narrow.isSome = true
  | free, _, _ => True

variable {α β : Type} {R : β → α → Prop} {known known' : Known} {a a' : Option β} {b b' : Option α}

theorem isTame_lax (known : Known) : known.lax.isTame = known.isTame := by
  cases known <;> rfl

theorem isSome_of_rel (h : Option.Rel R a b) : a.isSome = b.isSome := by
  cases h <;> rfl

/-- Two related results are there, or neither is. -/
theorem rel_cases (h : Option.Rel R a b) : a = none ∧ b = none ∨ ∃ x y, a = some x ∧ b = some y ∧ R x y := by
  cases h with
  | some hr => exact Or.inr ⟨_, _, rfl, rfl, hr⟩
  | none => exact Or.inl ⟨rfl, rfl⟩

theorem rel_or (h : Option.Rel R a b) (h' : Option.Rel R a' b') : Option.Rel R (a.or a') (b.or b') := by
  cases h with
  | some hr => exact .some hr
  | none => exact h'

/-- A second result changes nothing if it is never the only one. -/
theorem rel_or_left (h : Option.Rel R a b) (h' : a'.isSome = true → b.isSome = true) :
    Option.Rel R (a.or a') b := by
  cases h with
  | some hr => exact .some hr
  | none =>
    cases a' with
    | none => exact .none
    | some x => exact absurd (h' rfl) (by simp)

/-- A choice that is made alike, with what follows it related to the whole choice. -/
theorem rel_or_whole (h : Option.Rel R a b) (h' : Option.Rel R a' (b.or b')) : Option.Rel R (a.or a') (b.or b') := by
  cases h with
  | some hr => exact .some hr
  | none => exact h'

theorem Law.isSome (h : known.Law R a b) (hknown : known.isTame = true) : a.isSome = true → b.isSome = true := by
  intro ha
  cases known with
  | quiet =>
    have ha' : a = none := h
    simp [ha'] at ha
  | even => rwa [← isSome_of_rel h]
  | tame => exact h ha
  | free => simp [isTame] at hknown

theorem law_none (R : β → α → Prop) (known : Known) : known.Law R none none := by
  cases known with
  | quiet => exact Eq.refl none
  | even => exact .none
  | tame => exact id
  | free => trivial

theorem Law.lax_or (h : known.Law R a b) (b' : Option α) : known.lax.Law R a (b'.or b) := by
  have htame : (a.isSome = true → b.isSome = true) → a.isSome = true → (b'.or b).isSome = true := by
    intro hab ha
    simp [Option.isSome_or, hab ha]
  cases known with
  | quiet => exact h
  | even =>
    have heven : even.Law R a b := h
    exact htame (heven.isSome rfl)
  | tame => exact htame h
  | free => trivial

theorem Law.or (h : known.Law R a b) (h' : known'.Law R a' b') :
    (known.orElse known').Law R (a.or a') (b.or b') := by
  have htame : known.isTame = true → known'.isTame = true → (a.or a').isSome = true → (b.or b').isSome = true := by
    intro hk hk' ha
    rw [Option.isSome_or, Bool.or_eq_true] at ha ⊢
    exact ha.imp (h.isSome hk) (h'.isSome hk')
  unfold orElse
  split
  · have ha : a = none := h
    have ha' : a' = none := h'
    show a.or a' = none
    rw [ha, ha']
    rfl
  · exact rel_or h h'
  · split
    · rename_i hboth
      rw [Bool.and_eq_true] at hboth
      exact htame hboth.1 hboth.2
    · trivial

end Known


namespace Pattern

/-- Two ways to accept a reading, one in the text with the gap and one in the other, **agree** up to what is known about
the seam. -/
structure Agree (w : Widening) {α β : Type} (R : β → α → Prop) (known : Known) (wide : Reading → Option β)
    (narrow : Reading → Option α) : Prop where
  apart : ∀ {s r : Reading}, w.Lies s.cursor r.cursor → w.Keeps s.captures r.captures →
    Option.Rel R (wide s) (narrow r)
  seam : ∀ {s r : Reading}, w.Meets s.cursor r.cursor → w.Keeps s.captures r.captures →
    known.Law R (wide s) (narrow r)

/-- Spaces and tabs are accepted. -/
def acceptsGaps (accepts : Char → Bool) : Bool :=
  accepts ' ' && accepts '\t'

/-- Line ends, spaces and tabs are not accepted. -/
def rejectsBreaks (accepts : Char → Bool) : Bool :=
  !accepts '\n' && !accepts ' ' && !accepts '\t'

/-- A pattern that does nothing else in front of a gap than to pass it. -/
def slides : Pattern → Bool
  | .one accepts => acceptsGaps accepts
  | .alt (.one accepts) q => acceptsGaps accepts && !q.mayStart ' ' && !q.mayStart '\t'
  | _ => false

/-- What is known in front of a pattern, from what is known behind it. There is an answer only if the pattern reads alike
in both texts. -/
def settle : Pattern → Known → Option Known
  | .empty, known => some known
  | .one accepts, known =>
    if rejectsBreaks accepts then some .quiet else if known = .even then some .free else none
  | .text chars, known =>
    if chars.isEmpty then some known else if chars.any Text.isBreak then none else some .quiet
  | .seq p q, known => (settle q known).bind (settle p)
  | .alt p q, known => (settle p known).bind fun first => (settle q known).map first.orElse
  | .span accepts, known =>
    if rejectsBreaks accepts then some known.lax
    else if acceptsGaps accepts && known.isTame then some .even else none
  | .many order p, known =>
    if p.minWidth = 0 then none
    else if p.slides && (settle p .even).isSome && (known = .even || order = .longest && known.isTame) then
      some .even
    else if order = .longest && known.isTame && settle p .tame = some .quiet then some known.lax
    else (settle p .free).map fun _ => .free
  | .group _ p, known => settle p known
  | .ahead p, known => (settle p .even).map fun test => if test = .even then known else .free
  | .notAhead p, known => (settle p .even).map fun test => if test = .even then known else .free
  | .notBehind [accepts], known => if rejectsBreaks accepts then some known else none
  | .edge, _ => some .quiet
  | _, _ => none

/-- A pattern keeps what `settle` says. -/
def Sound (w : Widening) (limit' limit : Nat) (p : Pattern) : Prop :=
  ∀ {α β : Type} {R : β → α → Prop} {known known' : Known} {wide : Reading → Option β} {narrow : Reading → Option α},
    p.settle known = some known' → Agree w R known wide narrow →
      Agree w R known' (p.run limit' wide) (p.run limit narrow)

variable {w : Widening} {limit limit' : Nat} {p q : Pattern} {accepts : Char → Bool} {ch : Char}
variable {α β : Type} {R : β → α → Prop} {known known' : Known} {wide : Reading → Option β} {narrow : Reading → Option α}
variable {s r : Reading}

theorem rejectsBreaks_spec (h : rejectsBreaks accepts = true) (ch : Char) (hch : Text.isBreak ch = true) :
    accepts ch = false := by
  have hch' : ch = '\n' ∨ ch = ' ' ∨ ch = '\t' := by
    simpa [Text.isBreak, isGap] using hch
  simp only [rejectsBreaks, Bool.and_eq_true, Bool.not_eq_true'] at h
  rcases hch' with rfl | rfl | rfl
  · exact h.1.1
  · exact h.1.2
  · exact h.2

theorem gap_cases (w : Widening) : w.gap = ' ' ∨ w.gap = '\t' := by
  simpa [isGap] using w.isGap_gap

theorem acceptsGaps_spec (h : acceptsGaps accepts = true) (w : Widening) : accepts w.gap = true := by
  rw [acceptsGaps, Bool.and_eq_true] at h
  rcases gap_cases w with hgap | hgap
  · rw [hgap]
    exact h.1
  · rw [hgap]
    exact h.2

/-! ## One character, a text, a span -/

/-- A character that is no break leads from no place to the seam, and nothing is read at the seam. -/
theorem agree_one_rejects (haccepts : rejectsBreaks accepts = true) (h : Agree w R known wide narrow) :
    Agree w R .quiet ((one accepts).run limit' wide) ((one accepts).run limit narrow) where
  apart := by
    intro s r hlies hkeeps
    rw [run_one, run_one, hlies.nextIs_eq]
    by_cases hnext : r.cursor.nextIs accepts = true
    · rw [if_pos hnext, if_pos hnext]
      rcases hlies.advance ((hlies.nextIs_eq accepts).trans hnext) with hlies' | ⟨-, z, hz, hz'⟩
      · exact h.apart hlies' hkeeps
      · rw [rejectsBreaks_spec haccepts z hz] at hz'
        exact absurd hz' (by simp)
    · rw [if_neg hnext, if_neg hnext]
      exact .none
  seam := by
    intro s r hmeets _
    show (one accepts).run limit' wide s = none
    rw [run_one, hmeets.nextIs_eq, rejectsBreaks_spec haccepts _ w.isBreak_gap]
    rfl

/-- A character that may be a break leads to the seam at worst. -/
theorem agree_one_even (h : Agree w R .even wide narrow) :
    Agree w R .free ((one accepts).run limit' wide) ((one accepts).run limit narrow) where
  apart := by
    intro s r hlies hkeeps
    rw [run_one, run_one, hlies.nextIs_eq]
    by_cases hnext : r.cursor.nextIs accepts = true
    · rw [if_pos hnext, if_pos hnext]
      rcases hlies.advance ((hlies.nextIs_eq accepts).trans hnext) with hlies' | ⟨hmeets, -⟩
      · exact h.apart hlies' hkeeps
      · exact h.seam hmeets hkeeps
    · rw [if_neg hnext, if_neg hnext]
      exact .none
  seam := by
    intro s r _ _
    trivial

theorem sound_one : Sound w limit' limit (one accepts) := by
  intro α β R known known' wide narrow hsettle h
  unfold settle at hsettle
  by_cases haccepts : rejectsBreaks accepts = true
  · rw [if_pos haccepts] at hsettle
    obtain rfl := Option.some.inj hsettle
    exact agree_one_rejects haccepts h
  · rw [if_neg haccepts] at hsettle
    by_cases hknown : known = .even
    · rw [if_pos hknown] at hsettle
      obtain rfl := Option.some.inj hsettle
      subst hknown
      exact agree_one_even h
    · rw [if_neg hknown] at hsettle
      exact absurd hsettle (by simp)

theorem sound_text (chars : Text) : Sound w limit' limit (text chars) := by
  intro α β R known known' wide narrow hsettle h
  induction chars generalizing known' with
  | nil =>
    obtain rfl := Option.some.inj hsettle
    exact h
  | cons ch chars ih =>
    rw [settle, if_neg (by simp)] at hsettle
    by_cases hbreak : (ch :: chars).any Text.isBreak = true
    · rw [if_pos hbreak] at hsettle
      exact absurd hsettle (by simp)
    · rw [if_neg hbreak] at hsettle
      obtain rfl := Option.some.inj hsettle
      rw [List.any_cons, Bool.or_eq_true, not_or, Bool.not_eq_true] at hbreak
      have hrest : ∃ known', (text chars).settle known = some known' := by
        unfold settle
        by_cases hnil : chars.isEmpty = true
        · exact ⟨_, if_pos hnil⟩
        · exact ⟨_, by rw [if_neg hnil, if_neg hbreak.2]⟩
      obtain ⟨known', hsettle'⟩ := hrest
      have hreject : rejectsBreaks (fun x => ch == x) = true := by
        have hch := hbreak.1
        simp only [Text.isBreak, isGap, Bool.or_eq_false_iff] at hch
        simp [rejectsBreaks, hch]
      rw [funext (run_text_cons limit' ch chars wide), funext (run_text_cons limit ch chars narrow)]
      exact agree_one_rejects hreject (ih hsettle')

/-- A span of other characters stays in front of the gap, and does not come there from elsewhere. -/
theorem agree_span_rejects (haccepts : rejectsBreaks accepts = true) (h : Agree w R known wide narrow) :
    Agree w R known.lax ((span accepts).run limit' wide) ((span accepts).run limit narrow) where
  apart := by
    intro s r hlies hkeeps
    -- on what is left of the text
    induction hlen : s.cursor.after.length using Nat.strongRecOn generalizing s r with
    | ind len ih =>
      rw [run_span, run_span limit accepts narrow, hlies.nextIs_eq]
      by_cases hnext : r.cursor.nextIs accepts = true
      · rw [if_pos hnext, if_pos hnext]
        have hnext' : s.cursor.nextIs accepts = true := (hlies.nextIs_eq accepts).trans hnext
        rcases hlies.advance hnext' with hlies' | ⟨-, z, hz, hz'⟩
        · have hshort := s.cursor.length_advance_lt hnext'
          exact Known.rel_or (ih _ (hlen ▸ hshort) hlies' hkeeps rfl) (h.apart hlies hkeeps)
        · rw [rejectsBreaks_spec haccepts z hz] at hz'
          exact absurd hz' (by simp)
      · rw [if_neg hnext, if_neg hnext]
        exact h.apart hlies hkeeps
  seam := by
    intro s r hmeets hkeeps
    have hstay : (span accepts).run limit' wide s = wide s := by
      rw [run_span, hmeets.nextIs_eq, rejectsBreaks_spec haccepts _ w.isBreak_gap]
      rfl
    have hlaw := h.seam hmeets hkeeps
    rw [hstay, run_span]
    by_cases hnext : r.cursor.nextIs accepts = true
    · rw [if_pos hnext]
      exact hlaw.lax_or _
    · rw [if_neg hnext]
      exact hlaw.lax_or none

/-- A span that passes gaps tries the place behind the gap before it tries the seam. -/
theorem agree_span_accepts (haccepts : acceptsGaps accepts = true) (hknown : known.isTame = true)
    (h : Agree w R known wide narrow) :
    Agree w R .even ((span accepts).run limit' wide) ((span accepts).run limit narrow) := by
  have hboth : ∀ {s r : Reading}, w.Near s.cursor r.cursor → w.Keeps s.captures r.captures →
      Option.Rel R ((span accepts).run limit' wide s) ((span accepts).run limit narrow r) := by
    intro s r hnear hkeeps
    induction hlen : s.cursor.after.length using Nat.strongRecOn generalizing s r with
    | ind len ih =>
      rcases hnear with hlies | hmeets
      · rw [run_span, run_span limit accepts narrow, hlies.nextIs_eq]
        by_cases hnext : r.cursor.nextIs accepts = true
        · rw [if_pos hnext, if_pos hnext]
          have hnext' : s.cursor.nextIs accepts = true := (hlies.nextIs_eq accepts).trans hnext
          have hnear' : w.Near (s.cursor.advance 1) (r.cursor.advance 1) :=
            (hlies.advance hnext').imp_right And.left
          have hshort := s.cursor.length_advance_lt hnext'
          exact Known.rel_or (ih _ (hlen ▸ hshort) hnear' hkeeps rfl) (h.apart hlies hkeeps)
        · rw [if_neg hnext, if_neg hnext]
          exact h.apart hlies hkeeps
      · have hnext : s.cursor.nextIs accepts = true := (hmeets.nextIs_eq accepts).trans (acceptsGaps_spec haccepts w)
        have hshort := s.cursor.length_advance_lt hnext
        have hfar : Option.Rel R ((span accepts).run limit' wide ⟨s.cursor.advance 1, s.captures⟩)
            ((span accepts).run limit narrow r) :=
          ih _ (hlen ▸ hshort) (Or.inl hmeets.advance) hkeeps rfl
        rw [run_span, if_pos hnext]
        apply Known.rel_or_left hfar
        intro hseam
        have hnarrow := (h.seam hmeets hkeeps).isSome hknown hseam
        rw [run_span]
        by_cases hnext' : r.cursor.nextIs accepts = true
        · rw [if_pos hnext', Option.isSome_or, hnarrow, Bool.or_true]
        · rw [if_neg hnext']
          exact hnarrow
  exact ⟨fun hlies => hboth (Or.inl hlies), fun hmeets => hboth (Or.inr hmeets)⟩

theorem sound_span : Sound w limit' limit (span accepts) := by
  intro α β R known known' wide narrow hsettle h
  unfold settle at hsettle
  by_cases hrejects : rejectsBreaks accepts = true
  · rw [if_pos hrejects] at hsettle
    obtain rfl := Option.some.inj hsettle
    exact agree_span_rejects hrejects h
  · rw [if_neg hrejects] at hsettle
    by_cases haccepts : (acceptsGaps accepts && known.isTame) = true
    · rw [if_pos haccepts] at hsettle
      obtain rfl := Option.some.inj hsettle
      rw [Bool.and_eq_true] at haccepts
      exact agree_span_accepts haccepts.1 haccepts.2 h
    · rw [if_neg haccepts] at hsettle
      exact absurd hsettle (by simp)

/-! ## Repetitions -/

/-- Readings are accepted only where less than so much of the text is left. -/
def within (n : Nat) (accept : Reading → Option α) (r : Reading) : Option α :=
  if r.cursor.after.length < n then accept r else none

/-- A pattern that reads something asks for no more than that. -/
theorem run_within (hwidth : 0 < p.minWidth) (accept : Reading → Option α) (r : Reading) {n : Nat}
    (hn : r.cursor.after.length ≤ n) : p.run limit (within n accept) r = p.run limit accept r := by
  apply run_congr
  intro u hu
  have hlt := length_lt_of_mem_outcomes hwidth hu
  exact if_pos (by omega)

theorem rel_pick (order : Order) {a a' : Option β} {b b' : Option α} (h : Option.Rel R a b)
    (h' : Option.Rel R a' b') : Option.Rel R (pick order a a') (pick order b b') := by
  cases order with
  | longest => exact Known.rel_or h h'
  | shortest => exact Known.rel_or h' h

/-- One more step agrees in front of the seam and behind it, if everything that is left agrees. -/
theorem rel_further (hp : Sound w limit' limit p) (hsettle : p.settle known = some known') (hwidth : 0 < p.minWidth)
    (hlies : w.Lies s.cursor r.cursor) (hkeeps : w.Keeps s.captures r.captures)
    (ih : ∀ {u v : Reading}, u.cursor.after.length < s.cursor.after.length → w.Keeps u.captures v.captures →
      (w.Lies u.cursor v.cursor → Option.Rel R (wide u) (narrow v)) ∧
        (w.Meets u.cursor v.cursor → known.Law R (wide u) (narrow v))) :
    Option.Rel R (p.run limit' wide s) (p.run limit narrow r) := by
  rw [← run_within hwidth wide s (Nat.le_refl _), ← run_within hwidth narrow r (Nat.le_refl _)]
  refine (hp hsettle ⟨?_, ?_⟩).apart hlies hkeeps
  · intro u v huv hkeeps'
    have hiff := hlies.length_lt_iff (Or.inl huv)
    by_cases hlt : u.cursor.after.length < s.cursor.after.length
    · rw [within, within, if_pos hlt, if_pos (hiff.1 hlt)]
      exact (ih hlt hkeeps').1 huv
    · rw [within, within, if_neg hlt, if_neg fun h => hlt (hiff.2 h)]
      exact .none
  · intro u v huv hkeeps'
    have hiff := hlies.length_lt_iff (Or.inr huv)
    by_cases hlt : u.cursor.after.length < s.cursor.after.length
    · rw [within, within, if_pos hlt, if_pos (hiff.1 hlt)]
      exact (ih hlt hkeeps').2 huv
    · rw [within, within, if_neg hlt, if_neg fun h => hlt (hiff.2 h)]
      exact Known.law_none R known

/-- There is no step from the seam if nothing is read there. -/
theorem no_further (hp : Sound w limit' limit p) (hsettle : p.settle .tame = some .quiet) (hwidth : 0 < p.minWidth)
    (hmeets : w.Meets s.cursor r.cursor) (hkeeps : w.Keeps s.captures r.captures)
    (ih : ∀ {u v : Reading}, u.cursor.after.length < s.cursor.after.length → w.Keeps u.captures v.captures →
      w.Lies u.cursor v.cursor → Option.Rel R (wide u) (narrow v)) :
    p.run limit' wide s = none := by
  rw [← run_within hwidth wide s (Nat.le_refl _)]
  have hagree : Agree w R .tame (within s.cursor.after.length wide) (within s.cursor.after.length narrow) := by
    refine ⟨?_, ?_⟩
    · intro u v huv hkeeps'
      have hiff := hmeets.length_lt_iff huv
      by_cases hlt : u.cursor.after.length < s.cursor.after.length
      · rw [within, within, if_pos hlt, if_pos (hiff.1 hlt)]
        exact ih hlt hkeeps' huv
      · rw [within, within, if_neg hlt, if_neg fun h => hlt (hiff.2 h)]
        exact .none
    · -- the seam itself is not among them
      intro u v huv _ hsome
      rw [within, huv.after_wide, hmeets.after_wide, if_neg (Nat.lt_irrefl _)] at hsome
      exact absurd hsome (by simp)
  exact (hp hsettle hagree).seam hmeets hkeeps

theorem run_slides (hslides : p.slides = true) (hwidth : 0 < p.minWidth) (hmeets : w.Meets s.cursor r.cursor)
    (accept : Reading → Option β) :
    p.run limit accept s = accept ⟨s.cursor.advance 1, s.captures⟩ := by
  have hone : ∀ {accepts : Char → Bool}, acceptsGaps accepts = true →
      (one accepts).run limit accept s = accept ⟨s.cursor.advance 1, s.captures⟩ := by
    intro accepts haccepts
    rw [run_one, hmeets.nextIs_eq, acceptsGaps_spec haccepts w, if_pos (Eq.refl true)]
  unfold slides at hslides
  split at hslides
  · exact hone hslides
  · rename_i accepts q
    simp only [Bool.and_eq_true, Bool.not_eq_true'] at hslides
    have hstart : q.mayStart w.gap = false := by
      rcases gap_cases w with hgap | hgap
      · rw [hgap]
        exact hslides.1.2
      · rw [hgap]
        exact hslides.2
    have hq : 0 < q.minWidth := by
      simp only [minWidth] at hwidth
      omega
    have hnone : q.run limit accept s = none := by
      rw [run_eq_findSome?, outcomes_eq_nil hmeets.after_wide hstart hq]
      rfl
    rw [run_alt, hone hslides.1.1, hnone, Option.or_none]
  · exact absurd hslides (by simp)

section Repetition

variable (hlimit' : w.wide.length ≤ limit') (hlimit : w.narrow.length ≤ limit) (hp : Sound w limit' limit p)
  (hwidth : 0 < p.minWidth)

include hlimit' hlimit hp hwidth

/-- In front of the seam and behind it, a repetition agrees if it agrees where less of the text is left. -/
theorem rel_many {order : Order} {before : Known} (hsettle : p.settle before = some known')
    (h : Agree w R known wide narrow) (hlies : w.Lies s.cursor r.cursor) (hkeeps : w.Keeps s.captures r.captures)
    (ih : ∀ {u v : Reading}, u.cursor.after.length < s.cursor.after.length → w.Keeps u.captures v.captures →
      (w.Lies u.cursor v.cursor → Option.Rel R ((many order p).run limit' wide u) ((many order p).run limit narrow v)) ∧
        (w.Meets u.cursor v.cursor →
          before.Law R ((many order p).run limit' wide u) ((many order p).run limit narrow v))) :
    Option.Rel R ((many order p).run limit' wide s) ((many order p).run limit narrow r) := by
  have hlen := Widening.Near.length_le (Or.inl hlies)
  rw [run_many hwidth order wide (by omega), run_many hwidth order narrow (by omega)]
  exact rel_pick order (rel_further hp hsettle hwidth hlies hkeeps ih) (h.apart hlies hkeeps)

/-- A repetition of something that passes the gap tries the place behind it, and then the seam, or the other way
round. -/
theorem agree_many_slides {order : Order} (hslides : p.slides = true) (hsettle : p.settle .even = some known')
    (hknown : known = .even ∨ order = .longest ∧ known.isTame = true) (h : Agree w R known wide narrow) :
    Agree w R .even ((many order p).run limit' wide) ((many order p).run limit narrow) := by
  have hboth : ∀ {s r : Reading}, w.Near s.cursor r.cursor → w.Keeps s.captures r.captures →
      Option.Rel R ((many order p).run limit' wide s) ((many order p).run limit narrow r) := by
    intro s r hnear hkeeps
    induction hlen : s.cursor.after.length using Nat.strongRecOn generalizing s r with
    | ind len ih =>
      subst hlen
      rcases hnear with hlies | hmeets
      · apply rel_many hlimit' hlimit hp hwidth hsettle h hlies hkeeps
        intro u v hlt hkeeps'
        exact ⟨fun huv => ih _ hlt (Or.inl huv) hkeeps' rfl, fun huv => ih _ hlt (Or.inr huv) hkeeps' rfl⟩
      · have hroom := Widening.Near.length_le (Or.inr hmeets)
        have hshort : (s.cursor.advance 1).after.length < s.cursor.after.length := by
          simp [hmeets.after_wide]
        have hfar : Option.Rel R ((many order p).run limit' wide ⟨s.cursor.advance 1, s.captures⟩)
            ((many order p).run limit narrow r) :=
          ih _ hshort (Or.inl hmeets.advance) hkeeps rfl
        have hseam := h.seam hmeets hkeeps
        have hunroll : (many order p).run limit narrow r = _ := run_many hwidth order narrow (by omega)
        rw [run_many hwidth order wide (by omega), run_slides hslides hwidth hmeets]
        cases order with
        | longest =>
          have htame : known.isTame = true := by
            rcases hknown with rfl | ⟨-, htame⟩
            · rfl
            · exact htame
          apply Known.rel_or_left hfar
          intro hwide
          rw [hunroll, pick, Option.isSome_or, hseam.isSome htame hwide, Bool.or_true]
        | shortest =>
          obtain rfl : known = .even := by
            rcases hknown with heven | ⟨hlongest, -⟩
            · exact heven
            · exact absurd hlongest (by simp)
          have heven : Option.Rel R (wide s) (narrow r) := hseam
          rw [hunroll, pick] at hfar ⊢
          exact Known.rel_or_whole heven hfar
  exact ⟨fun hlies => hboth (Or.inl hlies), fun hmeets => hboth (Or.inr hmeets)⟩

/-- A repetition of something that is not read at the seam stays there. -/
theorem agree_many_quiet (hsettle : p.settle .tame = some .quiet) (hknown : known.isTame = true)
    (h : Agree w R known wide narrow) :
    Agree w R known.lax ((many .longest p).run limit' wide) ((many .longest p).run limit narrow) := by
  have hlax : known.lax.isTame = true := known.isTame_lax.trans hknown
  have hboth : ∀ {s r : Reading}, w.Keeps s.captures r.captures →
      (w.Lies s.cursor r.cursor →
        Option.Rel R ((many .longest p).run limit' wide s) ((many .longest p).run limit narrow r)) ∧
      (w.Meets s.cursor r.cursor →
        known.lax.Law R ((many .longest p).run limit' wide s) ((many .longest p).run limit narrow r)) := by
    intro s r hkeeps
    induction hlen : s.cursor.after.length using Nat.strongRecOn generalizing s r with
    | ind len ih =>
      subst hlen
      constructor
      · intro hlies
        apply rel_many hlimit' hlimit hp hwidth hsettle h hlies hkeeps
        intro u v hlt hkeeps'
        obtain ⟨hapart, hseam⟩ := ih _ hlt hkeeps' rfl
        exact ⟨hapart, fun huv => (hseam huv).isSome hlax⟩
      · intro hmeets
        have hroom := Widening.Near.length_le (Or.inr hmeets)
        have hnone : p.run limit' ((many .longest p).run limit' wide) s = none :=
          no_further hp hsettle hwidth hmeets hkeeps fun hlt hkeeps' => (ih _ hlt hkeeps' rfl).1
        rw [run_many hwidth .longest wide (by omega), run_many hwidth .longest narrow (by omega), hnone]
        exact (h.seam hmeets hkeeps).lax_or _
  exact ⟨fun hlies hkeeps => (hboth hkeeps).1 hlies, fun hmeets hkeeps => (hboth hkeeps).2 hmeets⟩

/-- Whatever happens at the seam, a repetition agrees elsewhere if what is repeated does not lead there. -/
theorem agree_many_free {order : Order} (hsettle : p.settle .free = some known') (h : Agree w R known wide narrow) :
    Agree w R .free ((many order p).run limit' wide) ((many order p).run limit narrow) := by
  refine ⟨?_, fun _ _ => trivial⟩
  intro s r hlies hkeeps
  induction hlen : s.cursor.after.length using Nat.strongRecOn generalizing s r with
  | ind len ih =>
    subst hlen
    apply rel_many hlimit' hlimit hp hwidth hsettle h hlies hkeeps
    intro u v hlt hkeeps'
    exact ⟨fun huv => ih _ hlt huv hkeeps' rfl, fun _ => trivial⟩

end Repetition

theorem sound_many (hlimit' : w.wide.length ≤ limit') (hlimit : w.narrow.length ≤ limit) (order : Order)
    (hp : Sound w limit' limit p) : Sound w limit' limit (many order p) := by
  intro α β R known known' wide narrow hsettle h
  unfold settle at hsettle
  split at hsettle
  · exact absurd hsettle (by simp)
  rename_i hwidth
  have hpos : 0 < p.minWidth := Nat.pos_of_ne_zero hwidth
  split at hsettle
  · rename_i hslides
    simp only [Bool.and_eq_true, Bool.or_eq_true, decide_eq_true_eq] at hslides
    obtain ⟨⟨hslides, heven⟩, hknown⟩ := hslides
    obtain ⟨_, heven⟩ := Option.isSome_iff_exists.1 heven
    obtain rfl := Option.some.inj hsettle
    exact agree_many_slides hlimit' hlimit hp hpos hslides heven hknown h
  split at hsettle
  · rename_i hquiet
    simp only [Bool.and_eq_true, decide_eq_true_eq] at hquiet
    obtain ⟨⟨rfl, hknown⟩, hquiet⟩ := hquiet
    obtain rfl := Option.some.inj hsettle
    exact agree_many_quiet hlimit' hlimit hp hpos hquiet hknown h
  · obtain ⟨_, hfree, rfl⟩ := Option.map_eq_some_iff.1 hsettle
    exact agree_many_free hlimit' hlimit hp hpos hfree h

/-! ## Groups and tests -/

theorem sound_group (label : Label) (hp : Sound w limit' limit p) : Sound w limit' limit (group label p) := by
  intro α β R known known' wide narrow hsettle h
  -- the group starts at the same place in both texts
  have hinner : ∀ {s r : Reading}, w.Near s.cursor r.cursor → Agree w R known
      (fun u => wide ⟨u.cursor, ⟨label, s.cursor, u.cursor⟩ :: u.captures⟩)
      (fun v => narrow ⟨v.cursor, ⟨label, r.cursor, v.cursor⟩ :: v.captures⟩) := by
    intro s r hnear
    refine ⟨fun hlies hkeeps => h.apart hlies ?_, fun hmeets hkeeps => h.seam hmeets ?_⟩
    · exact .cons ⟨rfl, hnear, Or.inl hlies⟩ hkeeps
    · exact .cons ⟨rfl, hnear, Or.inr hmeets⟩ hkeeps
  refine ⟨fun hlies hkeeps => ?_, fun hmeets hkeeps => ?_⟩
  · exact (hp hsettle (hinner (Or.inl hlies))).apart hlies hkeeps
  · exact (hp hsettle (hinner (Or.inr hmeets))).seam hmeets hkeeps

/-- A test that agrees at the seam as well changes nothing, and any other one leaves nothing known there. -/
theorem agree_test (holds' holds : Reading → Bool) (test : Known) (h : Agree w R known wide narrow)
    (hapart : ∀ {s r : Reading}, w.Lies s.cursor r.cursor → w.Keeps s.captures r.captures → holds' s = holds r)
    (hseam : test = .even → ∀ {s r : Reading}, w.Meets s.cursor r.cursor → w.Keeps s.captures r.captures →
      holds' s = holds r) :
    Agree w R (if test = .even then known else .free) (fun s => if holds' s then wide s else none)
      (fun r => if holds r then narrow r else none) := by
  refine ⟨?_, ?_⟩
  · intro s r hlies hkeeps
    rw [hapart hlies hkeeps]
    by_cases hholds : holds r = true
    · rw [if_pos hholds, if_pos hholds]
      exact h.apart hlies hkeeps
    · rw [if_neg hholds, if_neg hholds]
      exact .none
  · intro s r hmeets hkeeps
    by_cases htest : test = .even
    · rw [if_pos htest, hseam htest hmeets hkeeps]
      by_cases hholds : holds r = true
      · rw [if_pos hholds, if_pos hholds]
        exact h.seam hmeets hkeeps
      · rw [if_neg hholds, if_neg hholds]
        exact Known.law_none R known
    · rw [if_neg htest]
      trivial

/-- What follows in one text follows in the other. -/
theorem agree_follows (hp : Sound w limit' limit p) {test : Known} (hsettle : p.settle .even = some test) :
    (∀ {s r : Reading}, w.Lies s.cursor r.cursor → w.Keeps s.captures r.captures →
      (p.run limit' (fun _ => some ()) s).isSome = (p.run limit (fun _ => some ()) r).isSome) ∧
    (test = .even → ∀ {s r : Reading}, w.Meets s.cursor r.cursor → w.Keeps s.captures r.captures →
      (p.run limit' (fun _ => some ()) s).isSome = (p.run limit (fun _ => some ()) r).isSome) := by
  have hunit : Agree w (fun (_ _ : Unit) => True) .even (fun _ => some ()) (fun _ => some ()) :=
    ⟨fun _ _ => .some trivial, fun _ _ => .some trivial⟩
  have hrun := hp hsettle hunit
  refine ⟨fun hlies hkeeps => Known.isSome_of_rel (hrun.apart hlies hkeeps), ?_⟩
  rintro rfl s r hmeets hkeeps
  exact Known.isSome_of_rel (hrun.seam hmeets hkeeps)

theorem sound_ahead (hp : Sound w limit' limit p) : Sound w limit' limit (ahead p) := by
  intro α β R known known' wide narrow hsettle h
  obtain ⟨test, htest, rfl⟩ := Option.map_eq_some_iff.1 hsettle
  obtain ⟨hapart, hseam⟩ := agree_follows hp htest
  exact agree_test _ _ test h hapart hseam

theorem sound_notAhead (hp : Sound w limit' limit p) : Sound w limit' limit (notAhead p) := by
  intro α β R known known' wide narrow hsettle h
  obtain ⟨test, htest, rfl⟩ := Option.map_eq_some_iff.1 hsettle
  obtain ⟨hapart, hseam⟩ := agree_follows hp htest
  have hnot := agree_test (fun s => !(p.run limit' (fun _ => some ()) s).isSome)
    (fun r => !(p.run limit (fun _ => some ()) r).isSome) test h
    (fun hlies hkeeps => congrArg not (hapart hlies hkeeps))
    (fun heven _ _ hmeets hkeeps => congrArg not (hseam heven hmeets hkeeps))
  have hrun : ∀ {γ : Type} (l : Nat) (accept : Reading → Option γ), (notAhead p).run l accept
      = fun r => if !(p.run l (fun _ => some ()) r).isSome then accept r else none := by
    intro γ l accept
    funext r
    rw [run]
    cases (p.run l (fun _ => some ()) r).isSome <;> rfl
  rw [hrun, hrun]
  exact hnot

theorem sound_notBehind (accepts : List (Char → Bool)) : Sound w limit' limit (notBehind accepts) := by
  intro α β R known known' wide narrow hsettle h
  match accepts, hsettle with
  | [], hsettle => simp [settle] at hsettle
  | _ :: _ :: _, hsettle => simp [settle] at hsettle
  | [accepts], hsettle =>
    rw [settle] at hsettle
    split at hsettle
    · rename_i hrejects
      obtain rfl := Option.some.inj hsettle
      rw [run_notBehind, run_notBehind]
      have hlast := fun (ch : Char) => rejectsBreaks_spec hrejects ch
      have htest := agree_test (fun s => !s.cursor.lastIs accepts) (fun r => !r.cursor.lastIs accepts) .even h
        (fun hlies _ => congrArg not (hlies.lastIs_eq hlast))
        (fun _ _ _ hmeets _ => by
          rw [w.lastIs_front hlast hmeets.before_wide, w.lastIs_front hlast hmeets.before_narrow])
      exact htest
    · exact absurd hsettle (by simp)

theorem sound_edge : Sound w limit' limit edge := by
  intro α β R known known' wide narrow hsettle h
  obtain rfl := Option.some.inj hsettle
  refine ⟨?_, ?_⟩
  · intro s r hlies hkeeps
    rw [run, run, hlies.atEdge_eq]
    by_cases hedge : r.cursor.atEdge = true
    · rw [if_pos hedge, if_pos hedge]
      exact h.apart hlies hkeeps
    · rw [if_neg hedge, if_neg hedge]
      exact .none
  · intro s r hmeets _
    show edge.run limit' wide s = none
    rw [run, hmeets.atEdge_eq]
    rfl

theorem sound_seq (hp : Sound w limit' limit p) (hq : Sound w limit' limit q) : Sound w limit' limit (seq p q) := by
  intro α β R known known' wide narrow hsettle h
  obtain ⟨middle, hmiddle, hknown'⟩ := Option.bind_eq_some_iff.1 hsettle
  exact hp hknown' (hq hmiddle h)

theorem sound_alt (hp : Sound w limit' limit p) (hq : Sound w limit' limit q) : Sound w limit' limit (alt p q) := by
  intro α β R known known' wide narrow hsettle h
  obtain ⟨first, hfirst, hmap⟩ := Option.bind_eq_some_iff.1 hsettle
  obtain ⟨second, hsecond, rfl⟩ := Option.map_eq_some_iff.1 hmap
  have hwide := hp hfirst h
  have hnarrow := hq hsecond h
  refine ⟨?_, ?_⟩
  · intro s r hlies hkeeps
    rw [run_alt, run_alt]
    exact Known.rel_or (hwide.apart hlies hkeeps) (hnarrow.apart hlies hkeeps)
  · intro s r hmeets hkeeps
    rw [run_alt, run_alt]
    exact (hwide.seam hmeets hkeeps).or (hnarrow.seam hmeets hkeeps)

/-- **A pattern that settles reads alike in both texts.** -/
theorem settle_sound (hlimit' : w.wide.length ≤ limit') (hlimit : w.narrow.length ≤ limit) (p : Pattern) :
    Sound w limit' limit p := by
  induction p with
  | empty =>
    intro α β R known known' wide narrow hsettle h
    obtain rfl := Option.some.inj hsettle
    exact h
  | one accepts => exact sound_one
  | text chars => exact sound_text chars
  | seq p q hp hq => exact sound_seq hp hq
  | alt p q hp hq => exact sound_alt hp hq
  | span accepts => exact sound_span
  | many order p hp => exact sound_many hlimit' hlimit order hp
  | group label p hp => exact sound_group label hp
  | ahead p hp => exact sound_ahead hp
  | notAhead p hp => exact sound_notAhead hp
  | notBehind accepts => exact sound_notBehind accepts
  | edge => exact sound_edge
  | again | behind | lineStart | lineEnd | textEnd =>
    intro α β R known known' wide narrow hsettle
    simp [settle] at hsettle

end Pattern

end CodeSurvey
