import Mathlib.Data.Finset.Prod
import Mathlib.Data.List.GetD
import CodeSurvey.Proofs.Text.LineCut
import CodeSurvey.Proofs.Text.Trim
import CodeSurvey.Refactoring.Duplicate

/-!
# The windows of a text

A window is told by two line numbers: two to five lines, of which the first and the last are not blank. Its text is
what these lines give when they are joined and trimmed. The search for duplicates lists the windows line by line; here
they are a set, and the list is shown to hold each of them once.

* `IsWindow`: two line numbers that bound a window. `occurrences`: the windows with a certain text.
* `length_lines_windowText`: trimming takes no line away, so windows with one text are of one height.
* `mem_windows_iff`: the windows that are listed. `windows_before`: their order.
* `length_filter_windows`: as many windows with a text are listed as there are.
-/

namespace CodeSurvey.Duplicate

variable {t x : Text} {first last first' last' k number : Nat} {minLength : Int} {w : Window} {lines : List Text}

/-! ## Windows, told by line numbers -/

/-- A line of a text by its number; the first line has the number one. -/
def lineOf (t : Text) (number : Nat) : Text :=
  (Text.lines t).getD (number - 1) []

/-- The trimmed text of the lines from one number to another. -/
def windowText (t : Text) (first last : Nat) : Text :=
  Text.trim (Text.joinLines (((Text.lines t).drop (first - 1)).take (last + 1 - first)))

/-- **A window of a text**: two to five of its lines, the first and the last of them not blank. -/
structure IsWindow (t : Text) (first last : Nat) : Prop where
  pos : 1 ≤ first
  two_lines : first + 1 ≤ last
  five_lines : last ≤ first + 4
  inside : last ≤ (Text.lines t).length
  opens : hasContent (lineOf t first) = true
  closes : hasContent (lineOf t last) = true

instance (t : Text) (first last : Nat) : Decidable (IsWindow t first last) :=
  decidable_of_iff (1 ≤ first ∧ first + 1 ≤ last ∧ last ≤ first + 4 ∧ last ≤ (Text.lines t).length ∧
      hasContent (lineOf t first) = true ∧ hasContent (lineOf t last) = true)
    ⟨fun ⟨h1, h2, h3, h4, h5, h6⟩ => ⟨h1, h2, h3, h4, h5, h6⟩, fun ⟨h1, h2, h3, h4, h5, h6⟩ => ⟨h1, h2, h3, h4, h5, h6⟩⟩

/-- The windows of a text that have a certain text, by their first and last lines. -/
def occurrences (t x : Text) : Finset (Nat × Nat) :=
  (Finset.range ((Text.lines t).length + 1) ×ˢ Finset.range ((Text.lines t).length + 1)).filter fun s =>
    IsWindow t s.1 s.2 ∧ windowText t s.1 s.2 = x

theorem mem_occurrences_iff {s : Nat × Nat} :
    s ∈ occurrences t x ↔ IsWindow t s.1 s.2 ∧ windowText t s.1 s.2 = x := by
  rw [occurrences, Finset.mem_filter, Finset.mem_product, Finset.mem_range, Finset.mem_range]
  constructor
  · intro h
    exact h.2
  · intro h
    have htwo := h.1.two_lines
    have hinside := h.1.inside
    exact ⟨⟨by omega, by omega⟩, h⟩

theorem hasContent_iff {line : Text} : hasContent line = true ↔ ∃ c ∈ line, Text.isBlank c = false := by
  rw [hasContent, ← Text.trim_ne_nil_iff]
  simp

/-! ## Heights -/

/-- The lines of a window: the first, those between, and the last. -/
theorem IsWindow.lines_eq (h : IsWindow t first last) :
    ((Text.lines t).drop (first - 1)).take (last + 1 - first)
      = lineOf t first :: (((Text.lines t).drop first).take (last - 1 - first) ++ [lineOf t last]) := by
  obtain ⟨hpos, htwo, -, hinside, -, -⟩ := h
  have hfirst : first - 1 < (Text.lines t).length := by omega
  have hlast : last - 1 < (Text.lines t).length := by omega
  have hheight : last + 1 - first = (last - 1 - first + 1) + 1 := by omega
  have hplace : last - 1 - first < ((Text.lines t).drop first).length := by
    rw [List.length_drop]
    omega
  rw [List.drop_eq_getElem_cons hfirst, Nat.sub_add_cancel hpos, hheight, List.take_succ_cons,
    List.take_succ_eq_append_getElem hplace, List.getElem_drop]
  simp only [lineOf, List.getD_eq_getElem?_getD, List.getElem?_eq_getElem hfirst, List.getElem?_eq_getElem hlast,
    Option.getD_some, show first + (last - 1 - first) = last - 1 by omega]

/-- **Trimming takes no line of a window away.** -/
theorem length_lines_windowText (h : IsWindow t first last) :
    (Text.lines (windowText t first last)).length = last + 1 - first := by
  have hmem : ∀ n, hasContent (lineOf t n) = true → lineOf t n ∈ Text.lines t := by
    intro n hn
    unfold lineOf at hn ⊢
    rcases Nat.lt_or_ge (n - 1) (Text.lines t).length with hlt | hge
    · rw [List.getD_eq_getElem _ _ hlt]
      exact List.getElem_mem hlt
    · rw [List.getD_eq_default _ _ hge] at hn
      cases hn
  have hends := Text.no_end_of_mem_lines t
  have htrimmed : windowText t first last = Text.joinLines (Text.trimLeft (lineOf t first) ::
      (((Text.lines t).drop first).take (last - 1 - first) ++ [Text.trimRight (lineOf t last)])) := by
    rw [windowText, h.lines_eq, Text.trim_joinLines _ (hasContent_iff.1 h.opens) (hasContent_iff.1 h.closes)]
  rw [htrimmed, Text.lines_joinLines (by simp)]
  · have htwo := h.two_lines
    have hinside := h.inside
    simp only [List.length_cons, List.length_append, List.length_take, List.length_drop, List.length_nil]
    omega
  · intro l hl
    rcases List.mem_cons.1 hl with rfl | hl
    · exact fun hmem' => hends _ (hmem _ h.opens) ((List.dropWhile_sublist _).subset hmem')
    · rcases List.mem_append.1 hl with hl | hl
      · exact hends l (List.mem_of_mem_drop (List.mem_of_mem_take hl))
      · obtain rfl := List.mem_singleton.1 hl
        intro hmem'
        rw [Text.trimRight, List.mem_reverse] at hmem'
        exact hends _ (hmem _ h.closes) (List.mem_reverse.1 ((List.dropWhile_sublist _).subset hmem'))

/-- **Windows with one text are of one height.** -/
theorem height_eq (h : IsWindow t first last) (h' : IsWindow t first' last')
    (htext : windowText t first last = windowText t first' last') : last - first = last' - first' := by
  have hlen := length_lines_windowText h
  rw [htext, length_lines_windowText h'] at hlen
  have htwo := h.two_lines
  have htwo' := h'.two_lines
  omega

/-! ## The windows that are listed -/

theorem mem_windowsAt_iff : w ∈ windowsAt number lines ↔ ∃ height, 2 ≤ height ∧ height ≤ 5 ∧ height ≤ lines.length ∧
    hasContent (lines.getD (height - 1) []) = true ∧
      w = ⟨Text.trim (Text.joinLines (lines.take height)), number, number + height - 1⟩ := by
  have hlast : ∀ height, 1 ≤ height → height ≤ lines.length →
      (lines.take height).getLast? = some (lines.getD (height - 1) []) := by
    intro height hpos hle
    have hlt : height - 1 < lines.length := by omega
    rw [List.getLast?_eq_getElem?, List.length_take, Nat.min_eq_left hle, List.getElem?_take_of_lt (by omega),
      List.getD_eq_getElem _ _ hlt, List.getElem?_eq_getElem hlt]
  rw [windowsAt, List.mem_filterMap]
  constructor
  · intro h
    obtain ⟨height, hmem, h⟩ := h
    have hbounds : 2 ≤ height ∧ height ≤ 5 := by
      simp only [List.mem_cons, List.not_mem_nil, or_false] at hmem
      omega
    simp only [Option.ite_none_right_eq_some, Bool.and_eq_true, beq_iff_eq, List.length_take, Option.some.injEq] at h
    obtain ⟨⟨hlen, hcontent⟩, rfl⟩ := h
    have hle : height ≤ lines.length := by omega
    rw [hlast height (by omega) hle] at hcontent
    exact ⟨height, hbounds.1, hbounds.2, hle, hcontent, rfl⟩
  · intro h
    obtain ⟨height, htwo, hfive, hle, hcontent, rfl⟩ := h
    refine ⟨height, ?_, ?_⟩
    · simp only [List.mem_cons, List.not_mem_nil, or_false]
      omega
    · have hlen : (lines.take height).length = height := by
        rw [List.length_take, Nat.min_eq_left hle]
      have hany : (lines.take height).getLast?.any hasContent = true := by
        rw [hlast height (by omega) hle]
        exact hcontent
      simp only [hlen, hany, beq_self_eq_true, Bool.and_self, if_true]

/-- A line starts the windows of which it is the first line. -/
theorem mem_windowsAt_drop_iff (hk : k < (Text.lines t).length) :
    hasContent (lineOf t (k + 1)) = true ∧ w ∈ windowsAt (k + 1) ((Text.lines t).drop k) ↔
      w.first = k + 1 ∧ IsWindow t w.first w.last ∧ w.text = windowText t w.first w.last := by
  have hline : ∀ height, 1 ≤ height → ((Text.lines t).drop k).getD (height - 1) [] = lineOf t (k + height) := by
    intro height hpos
    rw [lineOf, List.getD_eq_getElem?_getD, List.getElem?_drop, List.getD_eq_getElem?_getD]
    congr 2
    omega
  rw [mem_windowsAt_iff, List.length_drop]
  constructor
  · intro h
    obtain ⟨hopens, height, htwo, hfive, hle, hcloses, rfl⟩ := h
    rw [hline height (by omega)] at hcloses
    have hlast : k + 1 + height - 1 = k + height := by omega
    have htake : k + 1 + height - 1 + 1 - (k + 1) = height := by omega
    refine ⟨rfl, ⟨?_, ?_, ?_, ?_, hopens, ?_⟩, ?_⟩
    · exact Nat.le_add_left 1 k
    · simp only [hlast]
      omega
    · simp only [hlast]
      omega
    · simp only [hlast]
      omega
    · simp only [hlast]
      exact hcloses
    · simp only [windowText, htake, Nat.add_sub_cancel]
  · intro h
    obtain ⟨text, first, last⟩ := w
    obtain ⟨hfirst, ⟨-, htwo, hfive, hinside, hopens, hcloses⟩, htext⟩ := h
    simp only at hfirst htwo hfive hinside hopens hcloses htext
    subst hfirst
    obtain ⟨height, rfl⟩ : ∃ height, last = k + height := ⟨last - k, by omega⟩
    refine ⟨hopens, height, by omega, by omega, by omega, ?_, ?_⟩
    · rw [hline height (by omega)]
      exact hcloses
    · rw [htext, windowText, Nat.add_sub_cancel, show k + height + 1 - (k + 1) = height by omega,
        show k + 1 + height - 1 = k + height by omega]

/-- **The windows from a line on.** -/
theorem mem_windowsFrom_iff (hlines : (Text.lines t).drop k = lines) : w ∈ windowsFrom (k + 1) lines ↔
    k + 1 ≤ w.first ∧ IsWindow t w.first w.last ∧ w.text = windowText t w.first w.last := by
  induction lines generalizing k with
  | nil =>
    rw [List.drop_eq_nil_iff] at hlines
    constructor
    · intro h
      cases h
    · intro h
      have htwo := h.2.1.two_lines
      have hinside := h.2.1.inside
      omega
  | cons line rest ih =>
    have hk : k < (Text.lines t).length := by
      rw [← List.drop_eq_nil_iff.not.trans Nat.not_le, hlines]
      exact List.cons_ne_nil _ _
    have hline : lineOf t (k + 1) = line := by
      rw [List.drop_eq_getElem_cons hk, List.cons.injEq] at hlines
      rw [lineOf, Nat.add_sub_cancel, List.getD_eq_getElem _ _ hk, hlines.1]
    have hrest : (Text.lines t).drop (k + 1) = rest := by
      rw [← List.tail_drop, hlines, List.tail_cons]
    have hhere : w ∈ (if hasContent line = true then windowsAt (k + 1) (line :: rest) else []) ↔
        w.first = k + 1 ∧ IsWindow t w.first w.last ∧ w.text = windowText t w.first w.last := by
      rw [← mem_windowsAt_drop_iff hk, hline, hlines]
      split <;> simp_all
    rw [windowsFrom, List.mem_append, hhere, ih hrest]
    constructor
    · intro h
      rcases h with ⟨hfirst, h⟩ | ⟨hfirst, h⟩
      · exact ⟨by omega, h⟩
      · exact ⟨by omega, h⟩
    · intro h
      rcases Nat.eq_or_lt_of_le h.1 with hfirst | hfirst
      · exact Or.inl ⟨hfirst.symm, h.2⟩
      · exact Or.inr ⟨hfirst, h.2⟩

/-- **The windows that are listed**: those whose text is long enough. -/
theorem mem_windows_iff : w ∈ windows minLength t ↔
    IsWindow t w.first w.last ∧ w.text = windowText t w.first w.last ∧ minLength ≤ w.text.length := by
  rw [windows, List.mem_filter, decide_eq_true_iff, mem_windowsFrom_iff (k := 0) (List.drop_zero)]
  constructor
  · intro h
    exact ⟨h.1.2.1, h.1.2.2, h.2⟩
  · intro h
    exact ⟨⟨h.1.pos, h.1, h.2.1⟩, h.2.2⟩

/-! ## Their order -/

/-- The order of the list: by the first line, and then by height. -/
def Before (v w : Window) : Prop :=
  v.first < w.first ∨ v.first = w.first ∧ v.last < w.last

theorem windowsAt_before (number : Nat) (lines : List Text) : (windowsAt number lines).Pairwise Before := by
  unfold windowsAt
  rw [List.pairwise_filterMap]
  have hheights : [2, 3, 4, 5].Pairwise (· < ·) := by decide
  refine hheights.imp_of_mem ?_
  intro a b ha hb hab v hv w hw
  simp only [Option.ite_none_right_eq_some, Option.some.injEq] at hv hw
  obtain ⟨-, rfl⟩ := hv
  obtain ⟨-, rfl⟩ := hw
  simp only [List.mem_cons, List.not_mem_nil, or_false] at ha
  exact Or.inr ⟨rfl, by simp only; omega⟩

theorem windowsFrom_before (number : Nat) (lines : List Text) :
    (windowsFrom number lines).Pairwise Before ∧ ∀ w ∈ windowsFrom number lines, number ≤ w.first := by
  induction lines generalizing number with
  | nil => exact ⟨List.Pairwise.nil, by simp [windowsFrom]⟩
  | cons line rest ih =>
    obtain ⟨hsorted, hfirst⟩ := ih (number + 1)
    have hhere : ∀ w ∈ (if hasContent line = true then windowsAt number (line :: rest) else []), w.first = number := by
      intro w hw
      split at hw
      · obtain ⟨height, -, -, -, -, rfl⟩ := mem_windowsAt_iff.1 hw
        rfl
      · cases hw
    rw [windowsFrom]
    refine ⟨List.pairwise_append.2 ⟨?_, hsorted, ?_⟩, ?_⟩
    · split
      · exact windowsAt_before _ _
      · exact List.Pairwise.nil
    · intro v hv w hw
      have hv := hhere v hv
      have hw := hfirst w hw
      exact Or.inl (by omega)
    · intro w hw
      rcases List.mem_append.1 hw with hw | hw
      · exact Nat.le_of_eq (hhere w hw).symm
      · exact Nat.le_of_succ_le (hfirst w hw)

theorem windows_before (minLength : Int) (t : Text) : (windows minLength t).Pairwise Before :=
  (windowsFrom_before 1 (Text.lines t)).1.filter _

/-- **As many windows with a text are listed as there are.** -/
theorem length_filter_windows (hx : minLength ≤ x.length) :
    ((windows minLength t).filter (·.text == x)).length = (occurrences t x).card := by
  have hnodup : (((windows minLength t).filter (·.text == x)).map fun w => (w.first, w.last)).Nodup := by
    rw [List.Nodup, List.pairwise_map]
    refine ((windows_before minLength t).filter _).imp ?_
    intro v w hbefore heq
    rw [Prod.mk.injEq] at heq
    rcases hbefore with hbefore | hbefore
    · omega
    · omega
  have hset : (((windows minLength t).filter (·.text == x)).map fun w => (w.first, w.last)).toFinset
      = occurrences t x := by
    ext s
    rw [List.mem_toFinset, List.mem_map, mem_occurrences_iff]
    constructor
    · rintro ⟨w, hw, rfl⟩
      rw [List.mem_filter, mem_windows_iff, beq_iff_eq] at hw
      obtain ⟨⟨hwindow, htext, -⟩, rfl⟩ := hw
      exact ⟨hwindow, htext.symm⟩
    · rintro ⟨hwindow, rfl⟩
      refine ⟨⟨windowText t s.1 s.2, s.1, s.2⟩, ?_, rfl⟩
      rw [List.mem_filter, mem_windows_iff, beq_iff_eq]
      exact ⟨⟨hwindow, rfl, hx⟩, rfl⟩
  rw [← hset, List.toFinset_card_of_nodup hnodup, List.length_map]

end CodeSurvey.Duplicate
