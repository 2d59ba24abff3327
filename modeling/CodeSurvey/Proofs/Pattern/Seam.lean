import CodeSurvey.Proofs.Pattern.Unrolled

/-!
# One more gap in a text

A text gets one more space or tab, at its start or behind a line end, a space or a tab. Every place of the old text has
one in the new text with the same text behind it. There is one place more: the seam, in front of the gap.

* `Widening`: a text and the place of one more gap.
* `Widening.Lies`, `Widening.Meets`: cursors at the same place of the two texts, apart from the seam and at the seam.
* `Lies.advance`: behind an accepted character, two cursors lie alike, or meet at the seam.
* `Lies.atEdge_eq`, `Meets.atEdge_eq`: the edges of words are the same, and the seam is none.
-/

namespace CodeSurvey

/-- A line end, a space or a tab. -/
def Text.isBreak (ch : Char) : Bool :=
  ch == '\n' || Pattern.isGap ch

/-- A text without breaks. -/
def Text.isUnbroken (t : Text) : Bool :=
  t.all fun ch => !Text.isBreak ch

theorem Text.isUnbroken_spec {t : Text} (h : t.isUnbroken = true) : ∀ ch ∈ t, Text.isBreak ch = false := by
  intro ch hch
  have hbreak := List.all_eq_true.1 h ch hch
  rwa [Bool.not_eq_true'] at hbreak

/-- A text, and a place at its start or behind a line end, a space or a tab, where a further gap is put in. -/
structure Widening where
  front : Text
  gap : Char
  back : Text
  isGap_gap : Pattern.isGap gap = true
  isBreak_last : ∀ ch ∈ front.getLast?, Text.isBreak ch = true

namespace Widening

/-- The text without the gap. -/
def narrow (w : Widening) : Text :=
  w.front ++ w.back

/-- The text with the gap. -/
def wide (w : Widening) : Text :=
  w.front ++ w.gap :: w.back

/-- What the front ends with, if anything, ends in a break as well. -/
theorem isBreak_suffix (w : Widening) {x : Text} (h : x <:+ w.front) : ∀ ch ∈ x.getLast?, Text.isBreak ch = true := by
  intro ch hch
  obtain ⟨y, hy⟩ := h
  apply w.isBreak_last ch
  rw [← hy, List.getLast?_append, hch]
  rfl

/-- A cursor in the text with the gap, and the cursor in the text without it that has the same text in front, or the
same text behind. -/
inductive Lies (w : Widening) (d c : Cursor) : Prop
  | inFront (x y : Text) (hy : y ≠ []) (hfront : w.front = x.reverse ++ y) (hdb : d.before = x)
      (hda : d.after = y ++ w.gap :: w.back) (hcb : c.before = x) (hca : c.after = y ++ w.back)
  | behind (x y : Text) (hback : w.back = x.reverse ++ y) (hdb : d.before = x ++ w.gap :: w.front.reverse)
      (hda : d.after = y) (hcb : c.before = x ++ w.front.reverse) (hca : c.after = y)

/-- A cursor at the seam, and the cursor where the gap is missing. -/
structure Meets (w : Widening) (d c : Cursor) : Prop where
  before_wide : d.before = w.front.reverse
  after_wide : d.after = w.gap :: w.back
  before_narrow : c.before = w.front.reverse
  after_narrow : c.after = w.back

/-- Cursors at the same place of the two texts. -/
def Near (w : Widening) (d c : Cursor) : Prop :=
  w.Lies d c ∨ w.Meets d c

/-- A cursor behind the gap. -/
def Ends (w : Widening) (d : Cursor) : Prop :=
  d.before = w.gap :: w.front.reverse

/-- Captures of the same groups between the same places. -/
def Keeps (w : Widening) : List Capture → List Capture → Prop :=
  List.Forall₂ fun e f => e.label = f.label ∧ w.Near e.start f.start ∧ w.Near e.stop f.stop

variable {w : Widening} {d c d' c' : Cursor} {accepts : Char → Bool}

theorem Lies.nextIs_eq (h : w.Lies d c) (accepts : Char → Bool) : d.nextIs accepts = c.nextIs accepts := by
  unfold Cursor.nextIs
  cases h with
  | inFront x y hy hfront hdb hda hcb hca =>
    obtain ⟨z, rest, rfl⟩ := List.exists_cons_of_ne_nil hy
    rw [hda, hca]
    rfl
  | behind x y hback hdb hda hcb hca => rw [hda, hca]

/-- **Behind an accepted character, two cursors lie alike, or meet at the seam.** In the second case the character was a
line end, a space or a tab. -/
theorem Lies.advance (h : w.Lies d c) (hnext : d.nextIs accepts = true) :
    w.Lies (d.advance 1) (c.advance 1) ∨
      w.Meets (d.advance 1) (c.advance 1) ∧ ∃ ch, Text.isBreak ch = true ∧ accepts ch = true := by
  unfold Cursor.nextIs at hnext
  cases h with
  | inFront x y hy hfront hdb hda hcb hca =>
    obtain ⟨z, rest, rfl⟩ := List.exists_cons_of_ne_nil hy
    rw [hda] at hnext
    by_cases hrest : rest = []
    · subst hrest
      have hlast : Text.isBreak z = true := w.isBreak_last z (by simp [hfront])
      refine Or.inr ⟨⟨?_, ?_, ?_, ?_⟩, z, hlast, hnext⟩ <;>
        simp [hdb, hda, hcb, hca, hfront]
    · refine Or.inl (.inFront (z :: x) rest hrest ?_ ?_ ?_ ?_ ?_) <;>
        simp [hdb, hda, hcb, hca, hfront]
  | behind x y hback hdb hda hcb hca =>
    cases y with
    | nil => simp [hda] at hnext
    | cons z rest =>
      refine Or.inl (.behind (z :: x) rest ?_ ?_ ?_ ?_ ?_) <;>
        simp [hdb, hda, hcb, hca, hback]

theorem Lies.after_eq_nil_iff (h : w.Lies d c) : d.after = [] ↔ c.after = [] := by
  cases h with
  | inFront x y hy hfront hdb hda hcb hca => simp [hda, hca, hy]
  | behind x y hback hdb hda hcb hca => rw [hda, hca]

/-- One place farther, two cursors are still at the same place. -/
theorem Lies.near_advance (h : w.Lies d c) (hend : d.after ≠ []) : w.Near (d.advance 1) (c.advance 1) := by
  have hnext : d.nextIs (fun _ => true) = true := by
    obtain ⟨z, rest, hafter⟩ := List.exists_cons_of_ne_nil hend
    simp [Cursor.nextIs, hafter]
  exact (h.advance hnext).imp_right And.left

theorem Meets.nextIs_eq (h : w.Meets d c) (accepts : Char → Bool) : d.nextIs accepts = accepts w.gap := by
  unfold Cursor.nextIs
  rw [h.after_wide]

/-- Behind the gap, nothing is missing any more. -/
theorem Meets.advance (h : w.Meets d c) : w.Lies (d.advance 1) c := by
  refine .behind [] w.back ?_ ?_ ?_ ?_ ?_ <;>
    simp [h.before_wide, h.after_wide, h.before_narrow, h.after_narrow]

theorem Meets.ends_advance (h : w.Meets d c) : w.Ends (d.advance 1) := by
  simp [Ends, h.before_wide, h.after_wide]

theorem Ends.lastIs_gap (h : w.Ends d) : d.lastIs Pattern.isGap = true := by
  unfold Cursor.lastIs
  rw [h]
  exact w.isGap_gap

/-- The place behind the gap comes next only at the seam. -/
theorem Lies.not_ends_advance (h : w.Lies d c) (hend : d.after ≠ []) : ¬ w.Ends (d.advance 1) := by
  intro hends
  have hlen := congrArg List.length hends
  obtain ⟨z, rest, hafter⟩ := List.exists_cons_of_ne_nil hend
  simp only [Cursor.advance_before, hafter, List.take_succ_cons, List.take_zero, List.reverse_singleton,
    List.singleton_append, List.length_cons, List.length_reverse] at hlen
  cases h with
  | inFront x y hy hfront hdb hda hcb hca =>
    have hpos := List.length_pos_of_ne_nil hy
    rw [hdb, hfront, List.length_append, List.length_reverse] at hlen
    omega
  | behind x y hback hdb hda hcb hca =>
    rw [hdb, List.length_append, List.length_cons, List.length_reverse] at hlen
    omega

/-- Two cursors stand in front of the gap or behind it. -/
theorem Near.cases (h : w.Near d c) :
    (∃ x y, w.front = x.reverse ++ y ∧ d.before = x ∧ d.after = y ++ w.gap :: w.back ∧ c.before = x ∧
      c.after = y ++ w.back) ∨
    ∃ x y, w.back = x.reverse ++ y ∧ d.before = x ++ w.gap :: w.front.reverse ∧ d.after = y ∧
      c.before = x ++ w.front.reverse ∧ c.after = y := by
  rcases h with (⟨x, y, -, hfront, hdb, hda, hcb, hca⟩ | ⟨x, y, hback, hdb, hda, hcb, hca⟩) | h
  · exact Or.inl ⟨x, y, hfront, hdb, hda, hcb, hca⟩
  · exact Or.inr ⟨x, y, hback, hdb, hda, hcb, hca⟩
  · exact Or.inl ⟨w.front.reverse, [], by simp, h.before_wide, h.after_wide, h.before_narrow, h.after_narrow⟩

theorem Near.length_le (h : w.Near d c) : d.after.length ≤ w.wide.length ∧ c.after.length ≤ w.narrow.length := by
  unfold wide narrow
  rcases h.cases with ⟨x, y, hfront, -, hda, -, hca⟩ | ⟨x, y, hback, -, hda, -, hca⟩
  · simp only [hda, hca, hfront, List.length_append, List.length_cons]
    omega
  · simp only [hda, hca, hback, List.length_append, List.length_cons]
    omega

/-- What is left of the text becomes shorter on both sides, or on neither. -/
theorem Lies.length_lt_iff (h : w.Lies d c) (h' : w.Near d' c') :
    d'.after.length < d.after.length ↔ c'.after.length < c.after.length := by
  have hlen : ∀ {x y : Text}, w.back = x.reverse ++ y → y.length ≤ w.back.length := by
    intro x y hback
    rw [hback, List.length_append]
    omega
  cases h with
  | inFront x y hy hfront hdb hda hcb hca =>
    have hpos := List.length_pos_of_ne_nil hy
    rcases h' with (⟨x', y', hy', -, -, hda', -, hca'⟩ | ⟨x', y', hback', -, hda', -, hca'⟩) | h'
    · simp only [hda, hca, hda', hca', List.length_append, List.length_cons]
      omega
    · have := hlen hback'
      simp only [hda, hca, hda', hca', List.length_append, List.length_cons]
      omega
    · simp only [hda, hca, h'.after_wide, h'.after_narrow, List.length_append, List.length_cons]
      omega
  | behind x y hback hdb hda hcb hca =>
    have := hlen hback
    rcases h' with (⟨x', y', hy', -, -, hda', -, hca'⟩ | ⟨x', y', hback', -, hda', -, hca'⟩) | h'
    · simp only [hda, hca, hda', hca', List.length_append, List.length_cons]
      omega
    · rw [hda, hca, hda', hca']
    · simp only [hda, hca, h'.after_wide, h'.after_narrow, List.length_cons]
      omega

/-- Behind the seam both texts are as long, and in front of it both are longer. -/
theorem Meets.length_lt_iff (h : w.Meets d c) (h' : w.Lies d' c') :
    d'.after.length < d.after.length ↔ c'.after.length < d.after.length := by
  cases h' with
  | inFront x y hy hfront hdb hda hcb hca =>
    have hpos := List.length_pos_of_ne_nil hy
    simp only [h.after_wide, hda, hca, List.length_append, List.length_cons]
    omega
  | behind x y hback hdb hda hcb hca => rw [hda, hca]

/-! ## What stands in front of a cursor -/

theorem isBreak_gap (w : Widening) : Text.isBreak w.gap = true := by
  simp [Text.isBreak, w.isGap_gap]

/-- A test for no break does not tell the gap from what stands in front of it. -/
theorem lastIs_front (w : Widening) (haccepts : ∀ ch, Text.isBreak ch = true → accepts ch = false)
    (hc : c.before = w.front.reverse) : c.lastIs accepts = false := by
  unfold Cursor.lastIs
  rw [hc]
  cases hfront : w.front.reverse with
  | nil => rfl
  | cons z rest =>
    have hz : w.front.getLast? = some z := by rw [← List.head?_reverse, hfront, List.head?_cons]
    exact haccepts z (w.isBreak_last z hz)

theorem Lies.lastIs_eq (h : w.Lies d c) (haccepts : ∀ ch, Text.isBreak ch = true → accepts ch = false) :
    d.lastIs accepts = c.lastIs accepts := by
  cases h with
  | inFront x y hy hfront hdb hda hcb hca =>
    unfold Cursor.lastIs
    rw [hdb, hcb]
  | behind x y hback hdb hda hcb hca =>
    cases x with
    | nil =>
      rw [w.lastIs_front haccepts hcb]
      unfold Cursor.lastIs
      rw [hdb]
      exact haccepts w.gap w.isBreak_gap
    | cons z rest =>
      unfold Cursor.lastIs
      rw [hdb, hcb]
      rfl

/-- A text without breaks stands in front of both cursors, or of neither. -/
theorem Lies.prefix_before_iff {x : Text} (h : w.Lies d c) (hx : ∀ ch ∈ x, Text.isBreak ch = false) :
    x <+: d.before ↔ x <+: c.before := by
  cases h with
  | inFront y z hz hfront hdb hda hcb hca => rw [hdb, hcb]
  | behind y z hback hdb hda hcb hca =>
    have hcut : ∀ t : Text, (∀ ch ∈ t.head?, Text.isBreak ch = true) → (x <+: y ++ t ↔ x <+: y) := by
      intro t ht
      refine ⟨fun h => ?_, fun h => h.trans (List.prefix_append y t)⟩
      rcases Nat.lt_or_ge y.length x.length with hlt | hle
      · -- the break would be part of the text
        obtain ⟨rest, rfl⟩ := List.prefix_of_prefix_length_le (List.prefix_append y t) h (Nat.le_of_lt hlt)
        rw [List.prefix_append_right_inj] at h
        obtain ⟨ch, rest, rfl⟩ : ∃ ch rest', rest = ch :: rest' := by
          cases rest with
          | nil => simp at hlt
          | cons ch rest' => exact ⟨ch, rest', rfl⟩
        obtain ⟨more, rfl⟩ := h
        have hbreak := ht ch rfl
        rw [hx ch (by simp)] at hbreak
        exact absurd hbreak (by simp)
      · exact List.prefix_of_prefix_length_le h (List.prefix_append y t) hle
    rw [hdb, hcb, hcut _ fun ch hch => ?_, hcut _ fun ch hch => ?_]
    · rw [List.head?_reverse] at hch
      exact w.isBreak_last ch hch
    · obtain rfl : w.gap = ch := by simpa using hch
      exact w.isBreak_gap

theorem isWord_of_isBreak (ch : Char) (h : Text.isBreak ch = true) : Text.isWord ch = false := by
  have hch : ch = '\n' ∨ ch = ' ' ∨ ch = '\t' := by
    simpa [Text.isBreak, Pattern.isGap] using h
  rcases hch with rfl | rfl | rfl <;> decide

theorem Lies.atEdge_eq (h : w.Lies d c) : d.atEdge = c.atEdge := by
  unfold Cursor.atEdge
  rw [h.lastIs_eq isWord_of_isBreak, h.nextIs_eq]

/-- No word starts or ends at the seam. -/
theorem Meets.atEdge_eq (h : w.Meets d c) : d.atEdge = false := by
  unfold Cursor.atEdge
  rw [w.lastIs_front isWord_of_isBreak h.before_wide, h.nextIs_eq, isWord_of_isBreak _ w.isBreak_gap]
  rfl

end Widening

end CodeSurvey
