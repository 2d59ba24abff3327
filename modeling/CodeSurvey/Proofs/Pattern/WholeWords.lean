import CodeSurvey.Proofs.Pattern.Every
import CodeSurvey.Proofs.Pattern.Words

/-!
# Whole words

A word that is to stand as a whole word is the run of word characters at its place. So no two such words stand at one
place, even if one of them is part of the other, and none starts inside another. A search finds them wherever they
stand, and a character that is part of no word cuts a text into parts that can be searched alone.

* `WholeWords`: words made of word characters.
* `Stands.eq_takeWhile`: a whole word is a run of word characters.
* `WholeWords.unambiguous`, `WholeWords.apart`: no two stand at one place, and none starts inside another.
* `WholeWords.count_append`: the matches on both sides of a character that is part of no word.
-/

namespace CodeSurvey.Pattern

variable {limit : Nat} {c : Cursor} {x : Text} {words : List String}

/-- **Words made of word characters.** -/
def WholeWords (words : List String) : Prop :=
  words ≠ [] ∧ ∀ w ∈ words, w.toList ≠ [] ∧ w.toList.all Text.isWord = true

instance (words : List String) : Decidable (WholeWords words) :=
  inferInstanceAs (Decidable (_ ∧ _))

/-- **A whole word is the run of word characters at its place.** -/
theorem Stands.eq_takeWhile (hx : ∀ ch ∈ x, Text.isWord ch = true) (h : Stands true x c) :
    x = c.after.takeWhile Text.isWord := by
  obtain ⟨y, hy⟩ := h.carried
  have hbehind := h.apartBehind rfl
  rw [← hy, List.drop_left] at hbehind
  rw [← hy, Text.takeWhile_append_eq hx hbehind]

namespace WholeWords

theorem isWord (h : WholeWords words) (hx : x ∈ words.map String.toList) : ∀ ch ∈ x, Text.isWord ch = true := by
  obtain ⟨w, hw, rfl⟩ := List.mem_map.1 hx
  exact List.all_eq_true.1 (h.2 w hw).2

theorem reads (h : WholeWords words) : Reads true (keywords words) (words.map String.toList) :=
  reads_keywords h.1 fun w hw => ⟨(h.2 w hw).1, h.isWord (List.mem_map_of_mem hw)⟩

theorem unambiguous (h : WholeWords words) : Unambiguous true (words.map String.toList) := by
  constructor
  · intro x hx
    obtain ⟨w, hw, rfl⟩ := List.mem_map.1 hx
    exact (h.2 w hw).1
  · intro c x y hx hy hstands hstands'
    rw [hstands.eq_takeWhile (h.isWord hx), hstands'.eq_takeWhile (h.isWord hy)]

/-- **Where a search for whole words reads, and how far.** -/
theorem readAt?_eq_some_iff {m : Match} (h : WholeWords words) : (keywords words).readAt? limit c = some m ↔
    ∃ w ∈ words, Stands true w.toList c ∧ m = ⟨c, c.advance w.toList.length, []⟩ := by
  simp only [readAt?_reads h.reads h.unambiguous, List.mem_map, exists_exists_and_eq_and]

/-- **No whole word starts inside another one**: a character of the first would touch it. -/
theorem apart (h : WholeWords words) (limit : Nat) : Apart limit (keywords words) := by
  intro c m hread i hpos hi
  obtain ⟨w, hw, hstands, rfl⟩ := h.readAt?_eq_some_iff.1 hread
  obtain ⟨y, hy⟩ := hstands.carried
  have hlt : i < w.toList.length := by
    have hplace := c.advance_place hstands.carried.length_le
    simp only [Match.last, Match.first, hplace] at hi
    omega
  cases hinside : (keywords words).readAt? limit (c.advance i) with
  | none => rfl
  | some m' =>
    obtain ⟨v, -, hstands', -⟩ := h.readAt?_eq_some_iff.1 hinside
    have hlen : i - 1 < c.after.length := by
      rw [← hy, List.length_append]
      omega
    -- right in front of the second word stands a character of the first
    have htouch : (c.advance i).lastIs Text.isWord = true := by
      have hchar := Cursor.lastIs_advance Text.isWord hlen
      rw [Nat.sub_add_cancel hpos] at hchar
      rw [hchar]
      apply h.isWord (List.mem_map_of_mem hw)
      simp only [← hy, List.getElem_append_left (show i - 1 < w.toList.length by omega)]
      exact List.getElem_mem _
    have happart := Cursor.lastIs_eq_false_iff.2 (hstands'.apartBefore rfl)
    rw [htouch] at happart
    cases happart

theorem minWidth_pos (h : WholeWords words) : 0 < (keywords words).minWidth := by
  obtain ⟨hne, hwords⟩ := h
  have hwidth : 0 < (Pattern.words words).minWidth := by
    induction words with
    | nil => exact absurd rfl hne
    | cons w rest ih =>
      have hpos : 0 < w.toList.length := List.length_pos_iff.2 (hwords w List.mem_cons_self).1
      cases rest with
      | nil => exact hpos
      | cons v rest =>
        exact Nat.lt_min.2 ⟨hpos, ih (by simp) fun u hu => hwords u (List.mem_cons_of_mem w hu)⟩
  exact Nat.lt_of_lt_of_le hwidth (Nat.le_trans (Nat.le_add_left _ _) (Nat.le_add_right _ _))

/-- **A character that is part of no word cuts a text into parts that can be searched alone.** -/
theorem count_append {ch : Char} (h : WholeWords words) (hch : Text.isWord ch = false) (a b : Text) :
    (keywords words).count (a ++ ch :: b) = (keywords words).count a + (keywords words).count b := by
  have hneutral : Neutral (words.map String.toList) ch := by
    refine ⟨hch, ?_⟩
    intro x hx hmem
    rw [h.isWord hx ch hmem] at hch
    cases hch
  exact count_neutral h.reads h.unambiguous h.minWidth_pos hneutral a b

end WholeWords

end CodeSurvey.Pattern
