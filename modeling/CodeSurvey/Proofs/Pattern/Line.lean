import CodeSurvey.Proofs.Pattern.Stops
import CodeSurvey.Proofs.Text.LineCut

/-!
# Patterns along lines

A shape that reads no line end stays on its line: whether it can be read is told by the rest of the line alone.
A line end leads from the end of one line to the start of the next.

* `Cursor.row`: where a line starts, by its number from zero. `Cursor.atLineStart_iff`: lines start nowhere else.
* `Cursor.OnLine`: a cursor on a line, with the rest of the line.
* `mem_stops_text_line`, `mem_stops_one_line`, `mem_stops_span_line`, `mem_stops_someGap_line`: shapes on a line.
* `mem_stops_end_line`: the line end.
-/

namespace CodeSurvey

variable {t l x y z : Text} {i k limit : Nat} {c d : Cursor} {accepts : Char → Bool}

namespace Cursor

/-- Where a line starts, by its number from zero. -/
def row (t : Text) (i : Nat) : Cursor :=
  ofPlace t (Text.unlines ((Text.lines t).take i)).length

/-- **A cursor on a line**, with `y` the rest of the line. -/
structure OnLine (t : Text) (i : Nat) (y : Text) (c : Cursor) : Prop where
  lt : i < (Text.lines t).length
  noEnd : '\n' ∉ y
  after : c.after = Text.joinLines (y :: (Text.lines t).drop (i + 1))
  next : i + 1 < (Text.lines t).length → c.advance (y.length + 1) = row t (i + 1)

theorem cut_row (h : (Text.lines t)[i]? = some l) :
    Text.Cut t (Text.unlines ((Text.lines t).take i)).length ((Text.lines t).take i) [] l
      ((Text.lines t).drop (i + 1)) := by
  refine ⟨?_, rfl⟩
  obtain ⟨hi, rfl⟩ := List.getElem?_eq_some_iff.1 h
  rw [List.nil_append, ← List.drop_eq_getElem_cons hi, List.take_append_drop]

theorem onLine_row (h : (Text.lines t)[i]? = some l) : OnLine t i l (row t i) := by
  have hi := (List.getElem?_eq_some_iff.1 h).1
  refine ⟨hi, ?_, ?_, fun _ => ?_⟩
  · exact Text.no_end_of_mem_lines t l (List.mem_of_getElem? h)
  · rw [row, ofPlace_after, (cut_row h).drop_eq]
  · have htake : (Text.lines t).take (i + 1) = (Text.lines t).take i ++ [l] := by
      rw [List.take_add_one, h]
      rfl
    have hlen : (Text.unlines ((Text.lines t).take (i + 1))).length
        = (Text.unlines ((Text.lines t).take i)).length + (l.length + 1) := by
      rw [htake, Text.unlines, Text.unlines, List.flatMap_append, List.length_append]
      simp
    rw [row, row, ofPlace_advance, hlen]

theorem row_place_le (h : i < (Text.lines t).length) :
    (Text.unlines ((Text.lines t).take i)).length ≤ t.length := by
  have hcut := cut_row (List.getElem?_eq_getElem h)
  have hlen := congrArg List.length hcut.text_eq
  rw [List.length_append] at hlen
  omega

/-- **Lines start where the rows say, and nowhere else.** -/
theorem atLineStart_iff (hk : k ≤ t.length) : (ofPlace t k).atLineStart = true ↔
    ∃ i < (Text.lines t).length, ofPlace t k = row t i := by
  constructor
  · intro hstart
    obtain ⟨ls, x, y, ms, hcut⟩ := Text.exists_cut hk
    have hlen : ls.length < (Text.lines t).length := by
      rw [hcut.lines_eq, List.length_append, List.length_cons]
      omega
    have htake : (Text.lines t).take ls.length = ls := by
      rw [hcut.lines_eq, List.take_left]
    refine ⟨ls.length, hlen, ?_⟩
    -- with something in front of it on its line, the place would be behind a character of the line
    obtain rfl | ⟨x, ch, rfl⟩ := List.eq_nil_or_concat x
    · rw [row, htake, hcut.place_eq]
      rfl
    · have hend := hcut.no_end.2.1
      rw [List.concat_eq_append] at hcut hend
      have hbefore : (ofPlace t k).before = ch :: (x.reverse ++ (Text.unlines ls).reverse) := by
        rw [ofPlace_before, hcut.take_eq]
        simp
      rw [atLineStart, lastIs, hbefore, List.isEmpty_cons, Bool.false_or, beq_iff_eq] at hstart
      exact absurd (by simp [hstart]) hend
  · rintro ⟨i, hi, heq⟩
    have hcut := cut_row (List.getElem?_eq_getElem hi)
    rw [heq, row, atLineStart, lastIs, ofPlace_before, hcut.take_eq, List.append_nil]
    obtain hnil | ⟨ls, l, hconcat⟩ := List.eq_nil_or_concat ((Text.lines t).take i)
    · rw [hnil]
      rfl
    · rw [hconcat, List.concat_eq_append, Text.unlines, List.flatMap_append]
      simp

namespace OnLine

/-- A cursor that moves on its line stays on it. -/
theorem advance (h : OnLine t i (x ++ y) c) : OnLine t i y (c.advance x.length) := by
  have hend := h.noEnd
  rw [List.mem_append, not_or] at hend
  refine ⟨h.lt, hend.2, ?_, fun hi => ?_⟩
  · rw [advance_after, h.after, Text.joinLines, Text.join_append_head, List.drop_left]
    rfl
  · rw [advance_advance, ← h.next hi, List.length_append, Nat.add_assoc]

/-- What follows is the rest of the line, and behind it a line end if the line is not the last one. -/
theorem exists_after (h : OnLine t i y c) : ∃ z, c.after = y ++ z ∧
    (z = [] ∧ (Text.lines t).length ≤ i + 1 ∨ i + 1 < (Text.lines t).length ∧ ∃ z', z = '\n' :: z') := by
  rcases Nat.lt_or_ge (i + 1) (Text.lines t).length with hlt | hge
  · have hne : (Text.lines t).drop (i + 1) ≠ [] := by
      rw [Ne, List.drop_eq_nil_iff]
      omega
    exact ⟨_, by rw [h.after, Text.joinLines_cons y hne], Or.inr ⟨hlt, _, rfl⟩⟩
  · refine ⟨[], ?_, Or.inl ⟨rfl, hge⟩⟩
    rw [h.after, List.drop_eq_nil_iff.2 hge, Text.joinLines, Text.join_singleton, List.append_nil]

theorem prefix_iff (h : OnLine t i y c) (hx : '\n' ∉ x) : x <+: c.after ↔ x <+: y := by
  obtain ⟨z, hafter, hz⟩ := h.exists_after
  rw [hafter]
  constructor
  · intro hpre
    rcases List.prefix_or_prefix_of_prefix hpre (List.prefix_append y z) with hxy | ⟨u, rfl⟩
    · exact hxy
    · -- what goes beyond the line starts with the line end
      rw [List.prefix_append_right_inj] at hpre
      cases u with
      | nil => simp
      | cons ch u =>
        rcases hz with ⟨rfl, -⟩ | ⟨-, z', rfl⟩
        · simp at hpre
        · obtain ⟨rfl, -⟩ := List.cons_prefix_cons.1 hpre
          simp at hx
  · intro hpre
    exact hpre.trans ( List.prefix_append y z)

/-- What is left of the line follows. -/
theorem prefix_append (h : OnLine t i (x ++ y) c) : x <+: c.after := by
  obtain ⟨z, hafter, -⟩ := h.exists_after
  rw [hafter, List.append_assoc]
  exact List.prefix_append x _

theorem nextIs_eq (h : OnLine t i y c) (haccepts : accepts '\n' = false) :
    c.nextIs accepts = y.head?.any accepts := by
  obtain ⟨z, hafter, hz⟩ := h.exists_after
  rw [nextIs, hafter]
  cases y with
  | nil => rcases hz with ⟨rfl, -⟩ | ⟨-, z', rfl⟩ <;> simp [haccepts]
  | cons ch y => rfl

end OnLine

end Cursor

namespace Pattern

open Cursor

theorem mem_stops_text_line (h : OnLine t i y c) (hx : '\n' ∉ x) : d ∈ (text x).stops limit c ↔
    ∃ z, y = x ++ z ∧ d = c.advance x.length := by
  rw [mem_stops_text, h.prefix_iff hx]
  constructor
  · rintro ⟨⟨z, rfl⟩, rfl⟩
    exact ⟨z, rfl, rfl⟩
  · rintro ⟨z, rfl, rfl⟩
    exact ⟨List.prefix_append x z, rfl⟩

theorem mem_stops_span_line (h : OnLine t i y c) (haccepts : accepts '\n' = false) :
    d ∈ (span accepts).stops limit c ↔
      ∃ x z, y = x ++ z ∧ (∀ ch ∈ x, accepts ch = true) ∧ d = c.advance x.length := by
  have hend : ∀ {x : Text}, (∀ ch ∈ x, accepts ch = true) → '\n' ∉ x := by
    intro x hx hmem
    rw [hx _ hmem] at haccepts
    cases haccepts
  rw [mem_stops_span]
  constructor
  · rintro ⟨x, hx, hpre, rfl⟩
    obtain ⟨z, rfl⟩ := (h.prefix_iff (hend hx)).1 hpre
    exact ⟨x, z, rfl, hx, rfl⟩
  · rintro ⟨x, z, rfl, hx, rfl⟩
    exact ⟨x, hx, (h.prefix_iff (hend hx)).2 (List.prefix_append x z), rfl⟩

/-- The rest of a line may be any part of it. -/
theorem mem_stops_lineRest_line (h : OnLine t i y c) : d ∈ lineRest.stops limit c ↔
    ∃ x z, y = x ++ z ∧ d = c.advance x.length := by
  show d ∈ (span (!"\n".toList.contains ·)).stops limit c ↔ _
  rw [mem_stops_span_line h rfl]
  constructor
  · rintro ⟨x, z, hy, -, hd⟩
    exact ⟨x, z, hy, hd⟩
  · rintro ⟨x, z, rfl, rfl⟩
    refine ⟨x, z, rfl, fun ch hch => ?_, rfl⟩
    have hne : ch ≠ '\n' := by
      rintro rfl
      exact h.noEnd (List.mem_append_left z hch)
    simpa using hne

theorem mem_stops_one_line (h : OnLine t i y c) (haccepts : accepts '\n' = false) :
    d ∈ (one accepts).stops limit c ↔
      ∃ ch z, y = ch :: z ∧ accepts ch = true ∧ d = c.advance 1 := by
  have hend : ∀ {ch : Char}, accepts ch = true → '\n' ∉ [ch] := by
    intro ch hch hmem
    rw [← List.mem_singleton.1 hmem, haccepts] at hch
    cases hch
  simp only [mem_stops, mem_outcomes_one]
  constructor
  · rintro ⟨s, ⟨ch, hch, hpre, rfl⟩, rfl⟩
    obtain ⟨z, rfl⟩ := (h.prefix_iff (hend hch)).1 hpre
    exact ⟨ch, z, rfl, hch, rfl⟩
  · rintro ⟨ch, z, rfl, hch, rfl⟩
    exact ⟨_, ⟨ch, hch, (h.prefix_iff (hend hch)).2 (List.prefix_append [ch] z), rfl⟩, rfl⟩

theorem mem_stops_someGap_line (h : OnLine t i y c) : d ∈ someGap.stops limit c ↔
    ∃ x z, y = x ++ z ∧ x ≠ [] ∧ (∀ ch ∈ x, isGap ch = true) ∧ d = c.advance x.length := by
  have hseq : d ∈ someGap.stops limit c ↔ ∃ e ∈ (one isGap).stops limit c, d ∈ (span isGap).stops limit e :=
    mem_stops_seq rfl
  rw [hseq]
  constructor
  · rintro ⟨e, he, hd⟩
    obtain ⟨ch, y, rfl, hch, rfl⟩ := (mem_stops_one_line h rfl).1 he
    have hrest : OnLine t i y (c.advance 1) := OnLine.advance (x := [ch]) h
    obtain ⟨x, z, rfl, hx, rfl⟩ := (mem_stops_span_line hrest rfl).1 hd
    refine ⟨ch :: x, z, rfl, List.cons_ne_nil _ _, ?_, ?_⟩
    · simpa [hch] using hx
    · rw [advance_advance, List.length_cons, Nat.add_comm]
  · rintro ⟨x, z, rfl, hne, hx, rfl⟩
    obtain ⟨ch, x, rfl⟩ := List.exists_cons_of_ne_nil hne
    rw [List.forall_mem_cons] at hx
    have hrest : OnLine t i (x ++ z) (c.advance 1) := OnLine.advance (x := [ch]) h
    refine ⟨c.advance 1, (mem_stops_one_line h rfl).2 ⟨ch, x ++ z, rfl, hx.1, rfl⟩, ?_⟩
    refine (mem_stops_span_line hrest rfl).2 ⟨x, z, rfl, hx.2, ?_⟩
    rw [advance_advance, List.length_cons, Nat.add_comm]

/-- The line end leads to the next line. -/
theorem mem_stops_end_line (h : OnLine t i y c) : d ∈ (lit "\n").stops limit c ↔
    y = [] ∧ i + 1 < (Text.lines t).length ∧ d = row t (i + 1) := by
  obtain ⟨z, hafter, hz⟩ := h.exists_after
  rw [lit, mem_stops_text, hafter]
  constructor
  · rintro ⟨hpre, rfl⟩
    cases y with
    | cons ch y =>
      obtain ⟨rfl, -⟩ := List.cons_prefix_cons.1 hpre
      exact absurd List.mem_cons_self h.noEnd
    | nil =>
      rcases hz with ⟨rfl, -⟩ | ⟨hlt, -⟩
      · simp at hpre
      · exact ⟨rfl, hlt, h.next hlt⟩
  · rintro ⟨rfl, hlt, rfl⟩
    rcases hz with ⟨-, hge⟩ | ⟨-, z', rfl⟩
    · omega
    · exact ⟨by simp, (h.next hlt).symm⟩

/-- Behind a word character, the edge of a word is where no word character follows. -/
theorem mem_stops_edge_line {ch : Char} (h : OnLine t i (x ++ y) c) (hlast : x.getLast? = some ch)
    (hch : Text.isWord ch = true) : d ∈ edge.stops limit (c.advance x.length) ↔
      (∀ ch ∈ y.head?, Text.isWord ch = false) ∧ d = c.advance x.length := by
  obtain ⟨x, rfl⟩ := List.getLast?_eq_some_iff.1 hlast
  have hpre := h.prefix_append
  have hlastIs : (c.advance (x ++ [ch]).length).lastIs Text.isWord = true := by
    rw [lastIs, advance_before, ← List.prefix_iff_eq_take.1 hpre, List.reverse_append]
    exact hch
  rw [mem_stops_edge, atEdge, hlastIs, h.advance.nextIs_eq (by decide)]
  cases y.head? with
  | none => simp
  | some ch => simp

end Pattern

end CodeSurvey
