import CodeSurvey.Pattern.Basic
import CodeSurvey.Proofs.Text.Lines
import Mathlib.Data.List.TakeWhile

/-!
# The lines around a place

A place cuts a text into the lines in front of it, its own line, and the lines behind. From this cut the number,
the start and the end of the line can be read off.

* `Cut`: a text cut at a place. `exists_cut`: every place in a text cuts it.
* `lineAt`, `linesBehind`: the line that holds a place, and the lines behind that one.
* `lineStop`: where a line ends, by its number. `lineEnd_eq_lineStop`: the end of the line that holds a place.
* `lineStop_lt`: a place comes behind the end of every line in front of its own.
* `indent`, `dropIndent`: a line is spaces and tabs, and then the rest of it.
-/

namespace CodeSurvey.Text

variable {t x y : Text} {i j n : Nat} {ls ms : List Text}

/-! ## Lines have no line ends -/

theorem no_end_of_mem_lines (t : Text) : ∀ l ∈ lines t, '\n' ∉ l := by
  unfold lines
  induction t with
  | nil => simp [splitWhen]
  | cons c rest ih =>
    unfold splitWhen
    cases hsplit : splitWhen (· == '\n') rest with
    | nil => exact absurd hsplit (splitWhen_ne_nil _ _)
    | cons piece pieces =>
      rw [hsplit] at ih
      have hpiece := ih piece List.mem_cons_self
      have hpieces : ∀ l ∈ pieces, '\n' ∉ l := fun l hl => ih l (List.mem_cons_of_mem _ hl)
      intro l hl
      simp only at hl
      by_cases hc : c = '\n'
      · rw [if_pos (by simpa using hc)] at hl
        rcases List.mem_cons.1 hl with rfl | hl
        · exact List.not_mem_nil
        · exact ih l hl
      · rw [if_neg (by simpa using hc)] at hl
        rcases List.mem_cons.1 hl with rfl | hl
        · simp [hpiece, Ne.symm hc]
        · exact hpieces l hl

theorem joinLines_concat (ls : List Text) (l : Text) : joinLines (ls ++ [l]) = unlines ls ++ l := by
  rw [joinLines_append ls (by simp), joinLines, join_singleton]

/-! ## Cuts -/

/-- **A text cut at a place**: the lines `ls` in front, the line that holds the place, with `x` in front of the
place and `y` behind it, and the lines `ms` behind. -/
structure Cut (t : Text) (i : Nat) (ls : List Text) (x y : Text) (ms : List Text) : Prop where
  lines_eq : lines t = ls ++ (x ++ y) :: ms
  place_eq : i = (unlines ls).length + x.length

/-- **Every place in a text cuts it.** -/
theorem exists_cut (h : i ≤ t.length) : ∃ ls x y ms, Cut t i ls x y ms := by
  obtain ⟨ls, x, hfront⟩ : ∃ ls x, lines (t.take i) = ls ++ [x] := by
    obtain hnil | ⟨ls, x, hconcat⟩ := List.eq_nil_or_concat (lines (t.take i))
    · exact absurd hnil (splitWhen_ne_nil _ _)
    · exact ⟨ls, x, by rw [hconcat, List.concat_eq_append]⟩
  obtain ⟨y, ms, hbehind⟩ : ∃ y ms, lines (t.drop i) = y :: ms :=
    List.exists_cons_of_ne_nil (splitWhen_ne_nil _ _)
  have hends : ∀ l ∈ ls ++ (x ++ y) :: ms, '\n' ∉ l := by
    have hl := no_end_of_mem_lines (t.take i)
    have hr := no_end_of_mem_lines (t.drop i)
    rw [hfront] at hl
    rw [hbehind] at hr
    intro l hmem
    rcases List.mem_append.1 hmem with hmem | hmem
    · exact hl l (by simp [hmem])
    · rcases List.mem_cons.1 hmem with rfl | hmem
      · simp [hl x (by simp), hr y (by simp)]
      · exact hr l (by simp [hmem])
  have htake : t.take i = unlines ls ++ x := by
    rw [← joinLines_concat, ← hfront, joinLines_lines]
  have hdrop : t.drop i = joinLines (y :: ms) := by
    rw [← hbehind, joinLines_lines]
  have ht : t = joinLines (ls ++ (x ++ y) :: ms) := by
    rw [joinLines_append ls (by simp), joinLines, join_append_head, ← joinLines, ← hdrop,
      ← List.append_assoc, ← htake, List.take_append_drop]
  refine ⟨ls, x, y, ms, ?_, ?_⟩
  · rw [ht, lines_joinLines (by simp) hends]
  · have hlen := congrArg List.length htake
    rw [List.length_take, List.length_append] at hlen
    omega

namespace Cut

theorem text_eq (h : Cut t i ls x y ms) : t = unlines ls ++ (x ++ joinLines (y :: ms)) := by
  rw [← joinLines_lines t, h.lines_eq, joinLines_append ls (by simp), joinLines, join_append_head]
  rfl

theorem no_end (h : Cut t i ls x y ms) : (∀ l ∈ ls, '\n' ∉ l) ∧ '\n' ∉ x ∧ '\n' ∉ y := by
  have hends := no_end_of_mem_lines t
  rw [h.lines_eq] at hends
  have hline := hends (x ++ y) (by simp)
  rw [List.mem_append, not_or] at hline
  exact ⟨fun l hl => hends l (by simp [hl]), hline⟩

theorem take_eq (h : Cut t i ls x y ms) : t.take i = unlines ls ++ x := by
  rw [h.text_eq, h.place_eq, ← List.append_assoc, ← List.length_append, List.take_left]

theorem drop_eq (h : Cut t i ls x y ms) : t.drop i = joinLines (y :: ms) := by
  rw [h.text_eq, h.place_eq, ← List.append_assoc, ← List.length_append, List.drop_left]

/-- The number of the line is one more than there are lines in front. -/
theorem lineNumber_eq (h : Cut t i ls x y ms) : lineNumber t i = ls.length + 1 := by
  obtain ⟨hls, hx, -⟩ := h.no_end
  rw [lineNumber, h.take_eq, List.count_append, count_unlines hls, List.count_eq_zero.2 hx, Nat.add_zero]

/-- The line starts behind the lines in front. -/
theorem lineStart_eq (h : Cut t i ls x y ms) : lineStart t i = (unlines ls).length := by
  obtain ⟨-, hx, -⟩ := h.no_end
  have hwhile : (x.reverse ++ (unlines ls).reverse).takeWhile (· != '\n') = x.reverse := by
    refine takeWhile_append_eq (fun c hc => ?_) fun c hc => ?_
    · rw [bne_iff_ne]
      rintro rfl
      exact hx (List.mem_reverse.1 hc)
    · -- the last character in front of the line is a line end
      obtain rfl | ⟨init, last, rfl⟩ := List.eq_nil_or_concat ls
      · simp [unlines] at hc
      · simp [unlines] at hc
        simp [← hc]
  simp only [lineStart, h.take_eq, List.reverse_append, hwhile, List.length_reverse, List.length_append]
  omega

/-- The line ends in front of the first line end behind the place, or with the text. -/
theorem lineEnd_eq (h : Cut t i ls x y ms) : lineEnd t i = i + y.length := by
  obtain ⟨-, -, hy⟩ := h.no_end
  have hnone : ∀ c ∈ y, (c == '\n') = false := by
    intro c hc
    rw [beq_eq_false_iff_ne]
    rintro rfl
    exact hy hc
  unfold lineEnd
  cases ms with
  | nil =>
    have hdrop : t.drop i = y := by rw [h.drop_eq, joinLines, join_singleton]
    have hindex : indexFrom? (· == '\n') t i = none := by
      unfold indexFrom?
      rw [hdrop, List.findIdx?_eq_none_iff.2 hnone]
      rfl
    have hlen := congrArg List.length h.text_eq
    rw [joinLines, join_singleton, List.length_append, List.length_append] at hlen
    rw [hindex, Option.getD_none, hlen, h.place_eq, Nat.add_assoc]
  | cons m ms =>
    have hdrop : t.drop i = y ++ '\n' :: joinLines (m :: ms) := by
      rw [h.drop_eq, joinLines_cons y (by simp)]
    rw [indexFrom?_of_append hdrop hnone rfl, Option.getD_some]

/-- What follows the line are the lines behind it. -/
theorem drop_lineEnd (h : Cut t i ls x y ms) : t.drop (lineEnd t i + 1) = joinLines ms := by
  rw [h.lineEnd_eq, Nat.add_assoc, ← List.drop_drop, h.drop_eq]
  cases ms with
  | nil => simp [joinLines, join]
  | cons m ms => simp [joinLines_cons y]

/-- A line is cut at its start, with nothing in front. -/
theorem start (h : Cut t i ls x y ms) : Cut t (lineStart t i) ls [] (x ++ y) ms :=
  ⟨h.lines_eq, by rw [h.lineStart_eq]; rfl⟩

end Cut

/-! ## The line that holds a place -/

/-- The line that holds a place. -/
def lineAt (t : Text) (i : Nat) : Text :=
  (lines t).getD (lineNumber t i - 1) []

/-- The lines behind the one that holds a place. -/
def linesBehind (t : Text) (i : Nat) : List Text :=
  (lines t).drop (lineNumber t i)

theorem Cut.lineAt_eq (h : Cut t i ls x y ms) : lineAt t i = x ++ y := by
  rw [lineAt, h.lineNumber_eq, h.lines_eq]
  simp

theorem Cut.linesBehind_eq (h : Cut t i ls x y ms) : linesBehind t i = ms := by
  rw [linesBehind, h.lineNumber_eq, h.lines_eq]
  simp

/-- The line that holds a place is the text from its start to its end. -/
theorem slice_line (h : i ≤ t.length) :
    slice t (lineStart t i) (lineEnd t (lineStart t i)) = lineAt t i := by
  obtain ⟨ls, x, y, ms, hcut⟩ := exists_cut h
  have hprefix : x ++ y <+: joinLines ((x ++ y) :: ms) := by
    have := prefix_joinLines [x ++ y] ms
    rwa [joinLines, join_singleton] at this
  rw [hcut.start.lineEnd_eq, slice, Nat.add_sub_cancel_left, hcut.lineAt_eq, hcut.start.drop_eq]
  exact (List.prefix_iff_eq_take.1 hprefix).symm

/-- A character that is no line end is on the line that holds its place. -/
theorem mem_lineAt {c : Char} (hc : t[i]? = some c) (hne : c ≠ '\n') : c ∈ lineAt t i := by
  have hlt := (List.getElem?_eq_some_iff.1 hc).1
  obtain ⟨ls, x, y, ms, hcut⟩ := exists_cut (Nat.le_of_lt hlt)
  have hhead : (joinLines (y :: ms)).head? = some c := by
    rw [← hcut.drop_eq, List.head?_drop, hc]
  rw [hcut.lineAt_eq]
  cases y with
  | nil =>
    -- the place would be that of a line end, or the end of the text
    cases ms with
    | nil => simp [joinLines, join] at hhead
    | cons m ms =>
      rw [joinLines_cons [] (by simp)] at hhead
      exact absurd (by simpa using hhead.symm) hne
  | cons d y =>
    have hd : d = c := by
      have hjoin := join_append_head ['\n'] [d] y ms
      rw [List.singleton_append] at hjoin
      rw [joinLines, hjoin] at hhead
      simpa using hhead
    rw [hd]
    simp

/-- Between two places with no line end between them the line does not change. -/
theorem lineNumber_eq_of_slice (hij : i ≤ j) (h : '\n' ∉ slice t i j) : lineNumber t i = lineNumber t j := by
  rw [lineNumber_add hij, List.count_eq_zero.2 h, Nat.add_zero]

/-- The text behind the end of a line is made of the lines behind it. -/
theorem drop_lineEnd (h : i ≤ t.length) : t.drop (lineEnd t i + 1) = joinLines (linesBehind t i) := by
  obtain ⟨ls, x, y, ms, hcut⟩ := exists_cut h
  rw [hcut.drop_lineEnd, hcut.linesBehind_eq]

/-! ## Where lines end -/

/-- The place where a line ends, by its number. -/
def lineStop (t : Text) (n : Nat) : Nat :=
  (joinLines ((lines t).take n)).length

/-- **A line ends where the line with its number does.** -/
theorem lineEnd_eq_lineStop (h : i ≤ t.length) : lineEnd t i = lineStop t (lineNumber t i) := by
  obtain ⟨ls, x, y, ms, hcut⟩ := exists_cut h
  have htake : (ls ++ (x ++ y) :: ms).take (ls.length + 1) = ls ++ [x ++ y] := by
    rw [List.take_length_add_append]
    rfl
  rw [lineStop, hcut.lineNumber_eq, hcut.lines_eq, htake, joinLines_concat, hcut.lineEnd_eq,
    hcut.place_eq, List.length_append, List.length_append, Nat.add_assoc]

theorem lineStop_mono (t : Text) {m : Nat} (h : m ≤ n) : lineStop t m ≤ lineStop t n := by
  have hsplit := List.take_append_drop m ((lines t).take n)
  rw [List.take_take, Nat.min_eq_left h] at hsplit
  unfold lineStop
  rw [← hsplit]
  exact (prefix_joinLines _ _).length_le

/-- The end of a line further on, by the lines between. -/
theorem lineStop_add (h : i ≤ t.length) (hj : j < (linesBehind t i).length) :
    lineStop t (lineNumber t i + (j + 1))
      = lineEnd t i + 1 + (joinLines ((linesBehind t i).take (j + 1))).length := by
  have hne : (linesBehind t i).take (j + 1) ≠ [] := by
    rw [Ne, List.take_eq_nil_iff, not_or]
    exact ⟨Nat.succ_ne_zero j, List.ne_nil_of_length_pos (by omega)⟩
  have hfront : (lines t).take (lineNumber t i) ≠ [] := by
    rw [Ne, List.take_eq_nil_iff, not_or]
    exact ⟨Nat.ne_of_gt (lineNumber_pos t i), splitWhen_ne_nil _ _⟩
  rw [lineEnd_eq_lineStop h, lineStop, lineStop, linesBehind, List.take_add, ← linesBehind,
    joinLines_append _ hne, List.length_append, length_unlines hfront]

/-- **A place comes behind the end of every line in front of its own.** -/
theorem lineStop_lt (h : i ≤ t.length) (hpos : 0 < n) (hn : n < lineNumber t i) : lineStop t n < i := by
  obtain ⟨ls, x, y, ms, hcut⟩ := exists_cut h
  rw [hcut.lineNumber_eq] at hn
  have htake : (lines t).take n = ls.take n := by
    rw [hcut.lines_eq, List.take_append_of_le_length (by omega)]
  have hne : ls.take n ≠ [] := by
    rw [Ne, List.take_eq_nil_iff, not_or]
    exact ⟨by omega, List.ne_nil_of_length_pos (by omega)⟩
  have hle : (unlines (ls.take n)).length ≤ (unlines ls).length := by
    have hsplit : unlines ls = unlines (ls.take n) ++ unlines (ls.drop n) := by
      rw [unlines, unlines, unlines, ← List.flatMap_append, List.take_append_drop]
    rw [hsplit, List.length_append]
    omega
  have hlen := length_unlines hne
  rw [lineStop, htake, hcut.place_eq]
  omega

/-! ## Indentation -/

open Pattern (isGap)

/-- A line without the spaces and tabs it starts with. -/
def dropIndent (line : Text) : Text :=
  line.dropWhile isGap

/-- The spaces and tabs that a line starts with. -/
def indent (line : Text) : Text :=
  line.takeWhile isGap

theorem indent_append_dropIndent (line : Text) : indent line ++ dropIndent line = line :=
  List.takeWhile_append_dropWhile

theorem isGap_of_mem_indent {line : Text} : ∀ ch ∈ indent line, isGap ch = true :=
  fun _ h => List.mem_takeWhile_imp h

theorem indent_append (hx : ∀ ch ∈ x, isGap ch = true) (hy : ∀ ch ∈ y.head?, isGap ch = false) :
    indent (x ++ y) = x :=
  takeWhile_append_eq hx hy

theorem dropIndent_append (hx : ∀ ch ∈ x, isGap ch = true) (hy : ∀ ch ∈ y.head?, isGap ch = false) :
    dropIndent (x ++ y) = y := by
  have hparts := indent_append_dropIndent (x ++ y)
  rwa [indent_append hx hy, List.append_cancel_left_eq] at hparts

end CodeSurvey.Text
