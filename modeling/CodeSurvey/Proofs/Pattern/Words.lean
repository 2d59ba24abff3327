import Mathlib.Algebra.GroupWithZero.Nat
import CodeSurvey.Grammar.Basic
import CodeSurvey.Proofs.Pattern.Parts
import CodeSurvey.Proofs.Text.Trim

/-!
# Patterns that read words

A list of words, of which each is read wherever it stands, or only where it stands as a whole word. If at most one of
them stands at a place, a character that is part of no word cuts a text into parts that can be searched alone. If no
word holds the first character of another one, then also none starts inside another, and one search for all of them
finds what a search for each finds.

* `Stands`: where a word stands. `Reads`: a pattern that reads words. `reads_words`, `reads_keywords`: two of them.
* `Unambiguous`: no two words stand at one place. `readAt?_reads`: where and how far such a pattern reads.
* `Separate`: no word holds the first character of another. `narrows_reads`: the matches of one word among those of
  several.
* `count_neutral`: the matches on both sides of a character that is part of no word.
* `count_lines`, `count_trim`: so the matches of a text are those of its lines, and blanks around it do not matter.
-/

namespace CodeSurvey

theorem Cursor.lastIs_eq_false_iff {accepts : Char → Bool} {c : Cursor} :
    c.lastIs accepts = false ↔ ∀ ch ∈ c.before.head?, accepts ch = false := by
  unfold Cursor.lastIs
  cases c.before <;> simp

theorem Cursor.nextIs_eq_false_iff {accepts : Char → Bool} {c : Cursor} :
    c.nextIs accepts = false ↔ ∀ ch ∈ c.after.head?, accepts ch = false := by
  unfold Cursor.nextIs
  cases c.after <;> simp

namespace Pattern

variable {limit limit' i : Nat} {whole : Bool} {p wide narrow : Pattern} {c d : Cursor} {m : Match} {r s : Reading}
  {x y z u v : Text} {ch : Char} {l : List Text} {words : List String}

/-! ## Where a word stands -/

/-- **A word stands at a cursor**: it comes next, and if it is to be a whole word, no word character touches it. -/
structure Stands (whole : Bool) (x : Text) (c : Cursor) : Prop where
  carried : x <+: c.after
  apartBefore : whole = true → ∀ ch ∈ c.before.head?, Text.isWord ch = false
  apartBehind : whole = true → ∀ ch ∈ (c.after.drop x.length).head?, Text.isWord ch = false

/-- **The pattern reads these words where they stand**, and nothing else. -/
def Reads (whole : Bool) (p : Pattern) (l : List Text) : Prop :=
  ∀ limit r s, s ∈ p.outcomes limit r ↔ ∃ x ∈ l, Stands whole x r.cursor ∧ s = r.past x

theorem reads_words (hne : words ≠ []) : Reads false (Pattern.words words) (words.map String.toList) := by
  intro limit r s
  rw [mem_outcomes_words hne]
  constructor
  · intro h
    obtain ⟨w, hw, hpre, rfl⟩ := h
    exact ⟨w.toList, List.mem_map_of_mem hw, ⟨hpre, by simp, by simp⟩, rfl⟩
  · intro h
    obtain ⟨_, hx, hstands, rfl⟩ := h
    obtain ⟨w, hw, rfl⟩ := List.mem_map.1 hx
    exact ⟨w, hw, hstands.carried, rfl⟩

/-- On both sides of a text of word characters, words end if no word character touches it. -/
theorem edges_iff (hne : x ≠ []) (hx : ∀ ch ∈ x, Text.isWord ch = true) (hpre : x <+: c.after) :
    c.atEdge = true ∧ (c.advance x.length).atEdge = true ↔ (∀ ch ∈ c.before.head?, Text.isWord ch = false) ∧
      ∀ ch ∈ (c.after.drop x.length).head?, Text.isWord ch = false := by
  obtain ⟨y, hy⟩ := hpre
  have hlen : x.length - 1 < c.after.length := by
    have := List.length_pos_iff.2 hne
    rw [← hy, List.length_append]
    omega
  have hpos : x.length - 1 + 1 = x.length := Nat.sub_add_cancel (List.length_pos_iff.2 hne)
  have hnext : c.nextIs Text.isWord = true := by
    obtain ⟨ch, rest, rfl⟩ := List.exists_cons_of_ne_nil hne
    rw [Cursor.nextIs, ← hy]
    exact hx ch List.mem_cons_self
  have hlast : (c.advance x.length).lastIs Text.isWord = true := by
    have hchar := Cursor.lastIs_advance Text.isWord hlen
    rw [hpos] at hchar
    rw [hchar]
    apply hx
    simp only [← hy, List.getElem_append_left (show x.length - 1 < x.length by omega)]
    exact List.getElem_mem _
  rw [← Cursor.lastIs_eq_false_iff, ← Cursor.advance_after, ← Cursor.nextIs_eq_false_iff, Cursor.atEdge, Cursor.atEdge,
    hnext, hlast]
  simp

theorem reads_keywords (hne : words ≠ [])
    (hwords : ∀ w ∈ words, w.toList ≠ [] ∧ ∀ ch ∈ w.toList, Text.isWord ch = true) :
    Reads true (keywords words) (words.map String.toList) := by
  intro limit r s
  have houtcomes : s ∈ (keywords words).outcomes limit r ↔ ∃ w ∈ words, w.toList <+: r.cursor.after ∧
      (r.cursor.atEdge = true ∧ (r.cursor.advance w.toList.length).atEdge = true) ∧ s = r.past w.toList := by
    simp only [keywords, outcomes_append, List.mem_flatMap, mem_outcomes_edge, mem_outcomes_words hne]
    constructor
    · intro h
      obtain ⟨_, ⟨_, ⟨hedge, rfl⟩, w, hw, hpre, rfl⟩, hbehind, rfl⟩ := h
      exact ⟨w, hw, hpre, ⟨hedge, hbehind⟩, rfl⟩
    · intro h
      obtain ⟨w, hw, hpre, ⟨hedge, hbehind⟩, rfl⟩ := h
      exact ⟨_, ⟨_, ⟨hedge, rfl⟩, w, hw, hpre, rfl⟩, hbehind, rfl⟩
  rw [houtcomes]
  constructor
  · intro h
    obtain ⟨w, hw, hpre, hedges, rfl⟩ := h
    obtain ⟨hbefore, hbehind⟩ := (edges_iff (hwords w hw).1 (hwords w hw).2 hpre).1 hedges
    exact ⟨w.toList, List.mem_map_of_mem hw, ⟨hpre, fun _ => hbefore, fun _ => hbehind⟩, rfl⟩
  · intro h
    obtain ⟨_, hx, hstands, rfl⟩ := h
    obtain ⟨w, hw, rfl⟩ := List.mem_map.1 hx
    have hedges := (edges_iff (hwords w hw).1 (hwords w hw).2 hstands.carried).2
      ⟨hstands.apartBefore rfl, hstands.apartBehind rfl⟩
    exact ⟨w, hw, hstands.carried, hedges, rfl⟩

/-! ## Words of which no two stand at one place -/

/-- **No two of the words stand at one place**, and none of them is empty. -/
structure Unambiguous (whole : Bool) (l : List Text) : Prop where
  ne_nil : ∀ x ∈ l, x ≠ []
  eq_of_stands : ∀ {c x y}, x ∈ l → y ∈ l → Stands whole x c → Stands whole y c → x = y

/-- **A pattern of such words reads the one that stands there.** -/
theorem readAt?_reads (hp : Reads whole p l) (hl : Unambiguous whole l) : p.readAt? limit c = some m ↔
    ∃ x ∈ l, Stands whole x c ∧ m = ⟨c, c.advance x.length, []⟩ := by
  rw [readAt?_eq, Option.map_eq_some_iff]
  constructor
  · intro h
    obtain ⟨s, hs, rfl⟩ := h
    obtain ⟨x, hx, hstands, rfl⟩ := (hp limit _ s).1 (List.mem_of_mem_head? hs)
    exact ⟨x, hx, hstands, rfl⟩
  · intro h
    obtain ⟨x, hx, hstands, rfl⟩ := h
    have hin := (hp limit ⟨c, []⟩ _).2 ⟨x, hx, hstands, rfl⟩
    obtain ⟨s, rest, hlist⟩ := List.exists_cons_of_ne_nil (List.ne_nil_of_mem hin)
    obtain ⟨y, hy, hstands', rfl⟩ := (hp limit ⟨c, []⟩ s).1 (hlist ▸ List.mem_cons_self)
    obtain rfl := hl.eq_of_stands hx hy hstands hstands'
    exact ⟨_, by rw [hlist]; rfl, rfl⟩

theorem text_of_stands (h : Stands whole x c) : (⟨c, c.advance x.length, []⟩ : Match).text = x := by
  obtain ⟨y, hy⟩ := h.carried
  have hplace := c.advance_place h.carried.length_le
  simp only [Match.text, Match.last, Match.first, hplace, Nat.add_sub_cancel_left, ← hy, List.take_left]

/-! ## Words that do not start inside each other -/

/-- **Words of which none holds the first character of another.** -/
structure Separate (l : List Text) : Prop where
  ne_nil : ∀ x ∈ l, x ≠ []
  head : ∀ x ∈ l, ∀ y ∈ l, x ≠ y → ∀ ch ∈ x.head?, ch ∉ y

/-- No other word starts at a place of a word. -/
theorem Separate.eq_of_starts (hl : Separate l) (hx : x ∈ l) (hy : y ∈ l) (hpre : y <+: c.after)
    (hi : i < y.length) (hstart : x <+: c.after.drop i) : x = y := by
  by_contra hne
  obtain ⟨z, hz⟩ := hpre
  obtain ⟨ch, rest, rfl⟩ := List.exists_cons_of_ne_nil (hl.ne_nil x hx)
  have hchar : ch = y[i] := by
    obtain ⟨z', hz'⟩ := hstart
    rw [← hz, List.drop_append_of_le_length (by omega), List.drop_eq_getElem_cons hi] at hz'
    exact (List.cons.inj hz').1
  exact hl.head _ hx y hy hne ch rfl (hchar ▸ List.getElem_mem hi)

theorem Separate.unambiguous (hl : Separate l) : Unambiguous whole l := by
  refine ⟨hl.ne_nil, ?_⟩
  intro c x y hx hy hstands hstands'
  have hpos := List.length_pos_iff.2 (hl.ne_nil y hy)
  exact hl.eq_of_starts hx hy hstands'.carried hpos hstands.carried

/-- **The matches of one word are those of several that are this word.** -/
theorem narrows_reads (hwide : Reads whole wide l) (hnarrow : Reads whole narrow [x]) (hl : Separate l) (hx : x ∈ l)
    (limit : Nat) : Narrows limit wide narrow (·.text == x) := by
  have hone : Separate [x] := by
    refine ⟨?_, ?_⟩
    · intro y hy
      rw [List.mem_singleton.1 hy]
      exact hl.ne_nil x hx
    · intro y hy z hz hne
      rw [List.mem_singleton.1 hy, List.mem_singleton.1 hz] at hne
      exact absurd rfl hne
  refine ⟨?_, ?_, ?_⟩
  · intro c m hread hkeep
    obtain ⟨y, hy, hstands, rfl⟩ := (readAt?_reads hwide hl.unambiguous).1 hread
    rw [text_of_stands hstands, beq_iff_eq] at hkeep
    subst hkeep
    exact ⟨_, (readAt?_reads hnarrow hone.unambiguous).2 ⟨y, List.mem_singleton_self y, hstands, rfl⟩, rfl⟩
  · intro c m hread
    obtain ⟨y, hy, hstands, rfl⟩ := (readAt?_reads hnarrow hone.unambiguous).1 hread
    obtain rfl := List.mem_singleton.1 hy
    refine ⟨_, (readAt?_reads hwide hl.unambiguous).2 ⟨y, hx, hstands, rfl⟩, ?_⟩
    rw [text_of_stands hstands, beq_self_eq_true]
  · intro c m hread hkeep i hi
    obtain ⟨y, hy, hstands, rfl⟩ := (readAt?_reads hwide hl.unambiguous).1 hread
    rw [text_of_stands hstands, beq_eq_false_iff_ne] at hkeep
    cases hinside : narrow.readAt? limit (c.advance i) with
    | none => rfl
    | some m' =>
      -- the one word would start inside the other
      obtain ⟨z, hz, hstands', -⟩ := (readAt?_reads hnarrow hone.unambiguous).1 hinside
      obtain rfl := List.mem_singleton.1 hz
      have hlt : i < y.length := by
        have hplace := c.advance_place hstands.carried.length_le
        simp only [Match.last, Match.first, hplace] at hi
        omega
      exact absurd (hl.eq_of_starts hx hy hstands.carried hlt hstands'.carried).symm hkeep

/-! ## Characters that are part of no word -/

/-- **A character that is part of no word**, neither of these words nor of any other. -/
structure Neutral (l : List Text) (ch : Char) : Prop where
  notWord : Text.isWord ch = false
  notMem : ∀ x ∈ l, ch ∉ x

theorem widthAt_reads (hp : Reads whole p l) (hl : Unambiguous whole l) {w : Nat} : p.widthAt limit c = some w ↔
    ∃ x ∈ l, Stands whole x c ∧ w = x.length := by
  have hwidth : ∀ {x : Text}, Stands whole x c →
      (⟨c, c.advance x.length, []⟩ : Match).last - (⟨c, c.advance x.length, []⟩ : Match).first = x.length := by
    intro x hstands
    have hplace := c.advance_place hstands.carried.length_le
    simp only [Match.last, Match.first, hplace, Nat.add_sub_cancel_left]
  rw [widthAt, Option.map_eq_some_iff]
  constructor
  · intro h
    obtain ⟨m, hread, rfl⟩ := h
    obtain ⟨x, hx, hstands, rfl⟩ := (readAt?_reads hp hl).1 hread
    exact ⟨x, hx, hstands, hwidth hstands⟩
  · intro h
    obtain ⟨x, hx, hstands, rfl⟩ := h
    exact ⟨_, (readAt?_reads hp hl).2 ⟨x, hx, hstands, rfl⟩, hwidth hstands⟩

theorem widthAt_congr (hp : Reads whole p l) (hl : Unambiguous whole l)
    (h : ∀ x ∈ l, Stands whole x c ↔ Stands whole x d) : p.widthAt limit c = p.widthAt limit' d := by
  apply Option.ext
  intro w
  rw [widthAt_reads hp hl, widthAt_reads hp hl]
  constructor
  · intro hw
    obtain ⟨x, hx, hstands, rfl⟩ := hw
    exact ⟨x, hx, (h x hx).1 hstands, rfl⟩
  · intro hw
    obtain ⟨x, hx, hstands, rfl⟩ := hw
    exact ⟨x, hx, (h x hx).2 hstands, rfl⟩

theorem prefix_append_cons_iff (hx : ch ∉ x) : x <+: u ++ ch :: v ↔ x <+: u := by
  constructor
  · intro h
    obtain ⟨z, hz⟩ := h
    obtain ⟨w, rfl, -⟩ := Text.exists_eq_append hz.symm hx
    exact List.prefix_append x w
  · intro h
    exact h.trans (List.prefix_append u _)

/-- In front of a neutral character words stand as they do alone. -/
theorem stands_front_iff (hch : Text.isWord ch = false) (hx : ch ∉ x) (hi : i ≤ u.length) :
    Stands whole x (Cursor.ofPlace (u ++ ch :: v) i) ↔ Stands whole x (Cursor.ofPlace u i) := by
  have hbefore : (Cursor.ofPlace (u ++ ch :: v) i).before = (Cursor.ofPlace u i).before := by
    rw [Cursor.ofPlace_before, Cursor.ofPlace_before, List.take_append_of_le_length hi]
  have hafter : (Cursor.ofPlace (u ++ ch :: v) i).after = (Cursor.ofPlace u i).after ++ ch :: v := by
    rw [Cursor.ofPlace_after, Cursor.ofPlace_after, List.drop_append_of_le_length hi]
  have hbehind : x <+: (Cursor.ofPlace u i).after →
      ((∀ a ∈ ((Cursor.ofPlace (u ++ ch :: v) i).after.drop x.length).head?, Text.isWord a = false) ↔
        ∀ a ∈ ((Cursor.ofPlace u i).after.drop x.length).head?, Text.isWord a = false) := by
    intro hpre
    rw [hafter, List.drop_append_of_le_length hpre.length_le]
    cases (Cursor.ofPlace u i).after.drop x.length with
    | nil => simp [hch]
    | cons a rest => simp
  constructor
  · intro h
    have hpre : x <+: (Cursor.ofPlace u i).after := (prefix_append_cons_iff hx).1 (hafter ▸ h.carried)
    exact ⟨hpre, hbefore ▸ h.apartBefore, fun hwhole => (hbehind hpre).1 (h.apartBehind hwhole)⟩
  · intro h
    refine ⟨?_, hbefore ▸ h.apartBefore, fun hwhole => (hbehind h.carried).2 (h.apartBehind hwhole)⟩
    rw [hafter]
    exact (prefix_append_cons_iff hx).2 h.carried

/-- So they do behind one. -/
theorem stands_behind_iff (hch : Text.isWord ch = false) :
    Stands whole x (Cursor.ofPlace (u ++ ch :: v) (u.length + 1 + i)) ↔ Stands whole x (Cursor.ofPlace v i) := by
  have hafter : (Cursor.ofPlace (u ++ ch :: v) (u.length + 1 + i)).after = (Cursor.ofPlace v i).after := by
    rw [Cursor.ofPlace_after, Cursor.ofPlace_after, Nat.add_assoc, Nat.add_comm 1 i, ← List.drop_drop, List.drop_left,
      List.drop_succ_cons]
  have hbefore : (∀ a ∈ (Cursor.ofPlace (u ++ ch :: v) (u.length + 1 + i)).before.head?, Text.isWord a = false) ↔
      ∀ a ∈ (Cursor.ofPlace v i).before.head?, Text.isWord a = false := by
    have htake : (u ++ ch :: v).take (u.length + 1 + i) = u ++ ch :: v.take i := by
      rw [Nat.add_assoc, Nat.add_comm 1 i, List.take_length_add_append, List.take_succ_cons]
    rw [Cursor.ofPlace_before, Cursor.ofPlace_before, htake, List.head?_reverse, List.head?_reverse,
      List.getLast?_append, List.getLast?_cons]
    cases hlast : (v.take i).getLast? with
    | none => simp [hch]
    | some a => simp
  constructor
  · intro h
    exact ⟨hafter ▸ h.carried, fun hwhole => hbefore.1 (h.apartBefore hwhole), hafter ▸ h.apartBehind⟩
  · intro h
    exact ⟨hafter ▸ h.carried, fun hwhole => hbefore.2 (h.apartBefore hwhole), hafter ▸ h.apartBehind⟩

/-- **A neutral character cuts a text into parts that can be searched alone.** -/
theorem count_neutral (hp : Reads whole p l) (hl : Unambiguous whole l) (hwidth : 0 < p.minWidth) (hch : Neutral l ch)
    (u v : Text) : p.count (u ++ ch :: v) = p.count u + p.count v := by
  apply count_append_cons hwidth
  · intro i hi
    exact widthAt_congr hp hl fun x hx => stands_front_iff hch.notWord (hch.notMem x hx) (Nat.le_of_lt hi)
  · cases hread : p.readAt? (u ++ ch :: v).length (Cursor.ofPlace (u ++ ch :: v) u.length) with
    | none => rfl
    | some m =>
      obtain ⟨x, hx, hstands, -⟩ := (readAt?_reads hp hl).1 hread
      obtain ⟨a, rest, rfl⟩ := List.exists_cons_of_ne_nil (hl.ne_nil x hx)
      have hpre := hstands.carried
      rw [Cursor.ofPlace_after, List.drop_left, List.cons_prefix_cons] at hpre
      exact absurd (hpre.1 ▸ List.mem_cons_self) (hch.notMem _ hx)
  · intro i _
    exact widthAt_congr hp hl fun x _ => stands_behind_iff hch.notWord

theorem count_nil (hwidth : 0 < p.minWidth) : p.count [] = 0 := by
  rw [count_eq_countFrom]
  exact countFrom_of_end hwidth rfl

/-- **The matches of a text are those of its lines.** -/
theorem count_lines (hp : Reads whole p l) (hl : Unambiguous whole l) (hwidth : 0 < p.minWidth)
    (hend : Neutral l '\n') (t : Text) : p.count t = ((Text.lines t).map p.count).sum := by
  have hjoined : ∀ ls : List Text, p.count (Text.joinLines ls) = (ls.map p.count).sum := by
    intro ls
    induction ls with
    | nil => exact count_nil hwidth
    | cons line ls ih =>
      rcases eq_or_ne ls [] with rfl | hne
      · simp [Text.joinLines, Text.join_singleton]
      · rw [Text.joinLines_cons line hne, count_neutral hp hl hwidth hend, ih, List.map_cons, List.sum_cons]
  rw [← hjoined, Text.joinLines_lines]

/-- Neutral characters in front of a text do not matter. -/
theorem count_dropWhile (hp : Reads whole p l) (hl : Unambiguous whole l) (hwidth : 0 < p.minWidth)
    {drops : Char → Bool} (hdrops : ∀ ch, drops ch = true → Neutral l ch) (t : Text) :
    p.count (t.dropWhile drops) = p.count t := by
  induction t with
  | nil => rfl
  | cons ch t ih =>
    by_cases hch : drops ch = true
    · have hcut := count_neutral hp hl hwidth (hdrops ch hch) [] t
      rw [List.nil_append, count_nil hwidth, Nat.zero_add] at hcut
      rw [List.dropWhile_cons_of_pos hch, ih, hcut]
    · rw [List.dropWhile_cons_of_neg hch]

/-- Nor do those behind it. -/
theorem count_dropWhile_reverse (hp : Reads whole p l) (hl : Unambiguous whole l) (hwidth : 0 < p.minWidth)
    {drops : Char → Bool} (hdrops : ∀ ch, drops ch = true → Neutral l ch) (t : Text) :
    p.count (t.reverse.dropWhile drops).reverse = p.count t := by
  induction t using List.reverseRecOn with
  | nil => rfl
  | append_singleton t ch ih =>
    rw [List.reverse_append, List.reverse_singleton, List.singleton_append]
    by_cases hch : drops ch = true
    · rw [List.dropWhile_cons_of_pos hch, ih, count_neutral hp hl hwidth (hdrops ch hch), count_nil hwidth,
        Nat.add_zero]
    · rw [List.dropWhile_cons_of_neg hch, List.reverse_cons, List.reverse_reverse]

/-- **Blanks around a text do not matter.** -/
theorem count_trim (hp : Reads whole p l) (hl : Unambiguous whole l) (hwidth : 0 < p.minWidth)
    (hblank : ∀ ch, Text.isBlank ch = true → Neutral l ch) (t : Text) : p.count (Text.trim t) = p.count t := by
  rw [Text.trim, Text.trimRight, count_dropWhile_reverse hp hl hwidth hblank, Text.trimLeft,
    count_dropWhile hp hl hwidth hblank]

/-! ## What is found -/

/-- Every match is one of the words. -/
theorem text_mem_of_mem_findAll {t : Text} (hp : Reads whole p l) (hm : m ∈ p.findAll t) : m.text ∈ l := by
  have hfirst := first_of_mem_readings _ _ hm
  obtain ⟨start, stop, captures⟩ := m
  obtain ⟨x, hx, hstands, hstop⟩ := (hp _ _ _).1 (List.mem_of_mem_head? hfirst)
  obtain ⟨rfl, rfl⟩ : stop = start.advance x.length ∧ captures = [] := by
    simpa [Reading.past] using hstop
  rw [text_of_stands hstands]
  exact hx

end Pattern

end CodeSurvey
