import CodeSurvey.Metric.Complexity
import CodeSurvey.Proofs.Pattern.Captured
import CodeSurvey.Proofs.Source.Spread
import CodeSurvey.Proofs.Source.Throws

/-!
# Signatures with one more gap

A function is found with one more gap in the text as it is without, by the same name. Its parameters may have the gap
between them, which does not change their number.

* `Match.rel_signature?`: two matches at the same place stand for the same signature, up to the gap.
* `Scripted.forall₂_function`, `Indented.forall₂_function`: the same functions are found.
* `Complexity.parameterCountOf_widened`: so the number of parameters is the same.
-/

namespace CodeSurvey

variable {w : Widening} {p : Pattern} {m m' : Match} {x y : Text}

/-- A text without gaps is what it is without one more. -/
theorem Text.Spread.eq_of_notMem (h : Text.Spread x y) (hspace : ' ' ∉ x) (htab : '\t' ∉ x) : x = y := by
  rcases h with rfl | ⟨w, rfl, rfl⟩
  · rfl
  · have hmem : w.gap ∈ w.wide := List.mem_append_right _ List.mem_cons_self
    rcases Pattern.gap_cases w with hgap | hgap
    · exact absurd (hgap ▸ hmem) hspace
    · exact absurd (hgap ▸ hmem) htab

theorem Text.Spread.eq_or_broken (h : Text.Spread x y) (hstart : ∀ ch ∈ x.head?, Pattern.isGap ch = false) :
    x = y ∨ Text.Broken x ∧ Text.Broken y := by
  rcases h with rfl | ⟨w, rfl, rfl⟩
  · exact Or.inl rfl
  · by_cases hfront : w.front = []
    · have hgap := hstart w.gap (by simp [Widening.wide, hfront])
      rw [w.isGap_gap] at hgap
      exact absurd hgap (by simp)
    · exact Or.inr (Text.broken_of_front w hfront)

/-! ## Signatures -/

/-- No name has a gap in it, and no type starts with one. -/
def Pattern.isTight (p : Pattern) : Bool :=
  p.groups.all fun g =>
    if g.1.role = "name" then g.2.lacks ' ' && g.2.lacks '\t'
    else if g.1.role = "rtype" then !g.2.mayStart ' ' && !g.2.mayStart '\t'
    else true

namespace Match

theorem notMem_name (hp : p.isTight = true) {t : Text} (hm : m ∈ p.findAll t) (h : m.group? "name" = some x) :
    ' ' ∉ x ∧ '\t' ∉ x := by
  obtain ⟨g, hg, hrole, hspelled⟩ := spelled_of_group? hm h
  have htight := List.all_eq_true.1 hp g hg
  rw [if_pos hrole, Bool.and_eq_true] at htight
  exact ⟨Pattern.notMem_of_lacks htight.1 hspelled, Pattern.notMem_of_lacks htight.2 hspelled⟩

theorem head_type (hp : p.isTight = true) {t : Text} (hm : m ∈ p.findAll t) (h : m.group? "rtype" = some x) :
    ∀ ch ∈ x.head?, Pattern.isGap ch = false := by
  obtain ⟨g, hg, hrole, hspelled⟩ := spelled_of_group? hm h
  have htight := List.all_eq_true.1 hp g hg
  rw [if_neg (by rw [hrole]; decide), if_pos hrole, Bool.and_eq_true, Bool.not_eq_true', Bool.not_eq_true'] at htight
  intro ch hch
  obtain ⟨rest, rfl⟩ : ∃ rest, x = ch :: rest := by
    cases x with
    | nil => simp at hch
    | cons z rest => exact ⟨rest, by rw [Option.some.inj hch]⟩
  have hstart := Pattern.mayStart_of_spelled hspelled
  rw [Bool.eq_false_iff]
  intro hgap
  have hch' : ch = ' ' ∨ ch = '\t' := by simpa [Pattern.isGap] using hgap
  rcases hch' with rfl | rfl
  · rw [htight.1] at hstart
    exact absurd hstart (by simp)
  · rw [htight.2] at hstart
    exact absurd hstart (by simp)

/-- A type is reserved with one more gap or without. -/
theorem reservedType_eq (hp : p.isTight = true) (hm : m' ∈ p.findAll w.wide) (h : w.Pairs m' m) :
    (m'.group? "rtype").any reservedTypes.contains = (m.group? "rtype").any reservedTypes.contains := by
  have hreserved : ∀ t ∈ reservedTypes, Text.isUnbroken t = true := by
    decide
  have hbroken : ∀ {t : Text}, Text.Broken t → reservedTypes.contains t = false := by
    rintro t ⟨ch, hch, hbreak⟩
    rw [Bool.eq_false_iff]
    intro hmem
    rw [Text.isUnbroken_spec (hreserved t (List.contains_iff_mem.1 hmem)) ch hch] at hbreak
    exact absurd hbreak (by simp)
  rcases Known.rel_cases (h.rel_group? "rtype") with ⟨hx, hy⟩ | ⟨x, y, hx, hy, hspread⟩
  · rw [hx, hy]
  · rw [hx, hy, Option.any_some, Option.any_some]
    rcases hspread.eq_or_broken (head_type hp hm hx) with rfl | ⟨hbx, hby⟩
    · rfl
    · rw [hbroken hbx, hbroken hby]

/-- **Two matches at the same place stand for the same signature, up to the gap.** -/
theorem rel_signature? (hp : p.isTight = true) (hm : m' ∈ p.findAll w.wide) (h : w.Pairs m' m) :
    Option.Rel (fun s' s => Text.Spread s'.params s.params) m'.signature? m.signature? := by
  have hparams : Text.Spread ((m'.group? "params").getD []) ((m.group? "params").getD []) := by
    rcases Known.rel_cases (h.rel_group? "params") with ⟨hx, hy⟩ | ⟨x, y, hx, hy, hspread⟩
    · rw [hx, hy]
      exact Or.inl rfl
    · rw [hx, hy]
      exact hspread
  unfold signature?
  rw [reservedType_eq hp hm h]
  rcases Known.rel_cases (h.rel_group? "name") with ⟨hx, hy⟩ | ⟨x, y, hx, hy, hspread⟩
  · rw [hx, hy]
    exact .none
  · obtain ⟨hspace, htab⟩ := notMem_name hp hm hx
    obtain rfl := hspread.eq_of_notMem hspace htab
    simp only [hx, hy]
    split
    · exact .none
    · split
      · exact .none
      · exact .some hparams

end Match

theorem rel_head?_filterMap {α β γ δ : Type} {S : α → β → Prop} {R : γ → δ → Prop} {f : α → Option γ}
    {g : β → Option δ} {l : List α} {l' : List β} (h : List.Forall₂ S l l')
    (hrel : ∀ a ∈ l, ∀ b, S a b → Option.Rel R (f a) (g b)) :
    Option.Rel R (l.filterMap f).head? (l'.filterMap g).head? := by
  induction h with
  | nil => exact .none
  | @cons a b l l' hab _ ih =>
    rw [List.filterMap_cons, List.filterMap_cons]
    rcases Known.rel_cases (hrel a List.mem_cons_self b hab) with ⟨hf, hg⟩ | ⟨c, d, hf, hg, hcd⟩
    · rw [hf, hg]
      exact ih fun a' ha' => hrel a' (List.mem_cons_of_mem a ha')
    · rw [hf, hg]
      exact .some hcd

/-- **The number of parameters does not change with one more gap**, if the same functions are found. -/
theorem Complexity.parameterCountOf_widened {language : Language} (hp : language.grammar.function.isTight = true)
    (h : List.Forall₂ w.Pairs (language.grammar.function.findAll w.wide) (language.grammar.function.findAll w.narrow)) :
    parameterCountOf language w.wide = parameterCountOf language w.narrow := by
  have hrel := rel_head?_filterMap h fun m' hm' m hpair => Match.rel_signature? hp hm' hpair
  unfold parameterCountOf
  rcases Known.rel_cases hrel with ⟨hwide, hnarrow⟩ | ⟨s', s, hwide, hnarrow, hspread⟩
  · rw [hwide, hnarrow]
  · rw [hwide, hnarrow]
    exact Param.length_parseAll_spread language hspread

/-! ## Functions -/

namespace Grammar

open Pattern

theorem Scripted.forall₂_function (w : Widening) :
    List.Forall₂ w.Pairs (Scripted.function.findAll w.wide) (Scripted.function.findAll w.narrow) := by
  have hsettle : Scripted.function.settle .even = some .quiet := by decide
  exact forall₂_findAll (by decide) (rel_readAt? (Nat.le_refl _) (Nat.le_refl _) hsettle)
    (law_readAt? (Nat.le_refl _) (Nat.le_refl _) hsettle)

namespace Indented

/-- A function behind the start of its line. -/
def unanchored : Pattern :=
  gap ++ opt (lit "async" ++ someGap) ++ lit "def" ++ someGap
    ++ group ⟨"name", "_a"⟩ name ++ gap
    ++ lit "(" ++ group ⟨"params", "_a"⟩ paramText ++ lit ")" ++ gap
    ++ opt (lit "->" ++ plus (noneOf ":\n")) ++ lit ":"

theorem readAt?_function (limit : Nat) (c : Cursor) : function.readAt? limit c
    = if c.atLineStart then unanchored.readAt? limit c else none :=
  rfl

/-- The start of a line is the same in both texts, apart from the place behind the gap. -/
theorem atLineStart_eq {d c : Cursor} (h : w.Lies d c) (hends : ¬ w.Ends d) : d.atLineStart = c.atLineStart := by
  unfold Cursor.atLineStart Cursor.lastIs
  cases h with
  | inFront x y hy hfront hdb hda hcb hca => rw [hdb, hcb]
  | behind x y hback hdb hda hcb hca =>
    cases x with
    | nil => exact absurd hdb hends
    | cons z rest =>
      rw [hdb, hcb]
      rfl

theorem not_atLineStart {d : Cursor} (h : w.Ends d) : d.atLineStart = false := by
  unfold Cursor.atLineStart Cursor.lastIs
  rw [h]
  rcases gap_cases w with hgap | hgap
  · rw [hgap]
    rfl
  · rw [hgap]
    rfl

/-- A signature ends with its colon. -/
theorem lastIs_stop {limit : Nat} {d : Cursor} (h : function.readAt? limit d = some m) :
    m.stop.lastIs isGap = false := by
  rw [readAt?_eq, Option.map_eq_some_iff] at h
  obtain ⟨s, hs, rfl⟩ := h
  obtain ⟨u, -, hu⟩ := List.mem_flatMap.1 (List.mem_of_mem_head? hs)
  obtain ⟨hcolon, rfl⟩ := mem_outcomes_text.1 hu
  obtain ⟨rest, hrest⟩ := hcolon
  show (u.cursor.advance _).lastIs isGap = false
  unfold Cursor.lastIs
  rw [Cursor.advance_before, ← hrest]
  rfl

theorem forall₂_function (w : Widening) :
    List.Forall₂ w.Pairs (function.findAll w.wide) (function.findAll w.narrow) := by
  have hsettle : unanchored.settle .even = some .even := by decide
  refine forall₂_findAll_behind (by decide) ?_ ?_ ?_ lastIs_stop
  · intro d c hlies hends
    rw [readAt?_function, readAt?_function, atLineStart_eq hlies hends]
    split
    · exact rel_readAt? (Nat.le_refl _) (Nat.le_refl _) hsettle hlies
    · exact .none
  · intro d c hmeets
    have hstart : d.atLineStart = c.atLineStart := by
      unfold Cursor.atLineStart Cursor.lastIs
      rw [hmeets.before_wide, hmeets.before_narrow]
    rw [readAt?_function, readAt?_function, hstart]
    split
    · exact law_readAt? (Nat.le_refl _) (Nat.le_refl _) hsettle hmeets
    · exact .none
  · intro d hends
    rw [readAt?_function, not_atLineStart hends]
    rfl

end Indented

end Grammar

end CodeSurvey
