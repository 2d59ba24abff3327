import CodeSurvey.Performance.Finding
import CodeSurvey.Proofs.Text.Trim

/-!
# Large arrays, segment by segment

The count of large arrays goes from one bracketed span to the next. The same number can be told without a search: cut
the text at every closing bracket and look at each segment that one ends, all but the last. A segment holds a span if
it holds an opening bracket, and the span is what stands behind the first one.

* `OpensLarge`: a segment with a large span. `largeSegments`: their number.
* `firstSpan?_eq_some`, `firstSpan?_eq_none`: what one round of the search passes, and why it ends.
* `largeSegments_append`, `largeSegments_span`: the segments passed in one round.
* `largeArrays_eq_segments`: the search counts the large segments, and each round leaves it less text.
-/

namespace CodeSurvey

variable {t segment inside rest before behind : Text} {c : Char}

/-- A segment that holds an opening bracket, with at least a thousand characters behind the first one. -/
def OpensLarge (segment : Text) : Prop :=
  '[' ∈ segment ∧ 1000 ≤ (segment.drop (segment.idxOf '[' + 1)).length

instance : DecidablePred OpensLarge :=
  fun _ => inferInstanceAs (Decidable (_ ∧ _))

/-- The number of large segments among those that end with a closing bracket. -/
def largeSegments (t : Text) : Nat :=
  (Text.splitWhen (· == ']') t).dropLast.countP fun segment => OpensLarge segment

/-! ## Segments -/

theorem opensLarge_open_cons : OpensLarge ('[' :: inside) ↔ 1000 ≤ inside.length := by
  simp [OpensLarge]

theorem opensLarge_cons (hc : c ≠ '[') : OpensLarge (c :: segment) ↔ OpensLarge segment := by
  simp [OpensLarge, List.idxOf_cons_ne _ hc, hc.symm]

theorem not_opensLarge_nil : ¬ OpensLarge [] := by
  simp [OpensLarge]

/-- A character that opens nothing changes no count, whether it goes to the first segment or ends one. -/
theorem largeSegments_cons (hc : c ≠ '[') (t : Text) : largeSegments (c :: t) = largeSegments t := by
  obtain ⟨piece, pieces, hsplit⟩ := List.exists_cons_of_ne_nil (Text.splitWhen_ne_nil (· == ']') t)
  unfold largeSegments
  rw [Text.splitWhen, hsplit]
  by_cases hclose : c = ']'
  · simp [hclose, not_opensLarge_nil]
  · cases pieces with
    | nil => simp [hclose]
    | cons next pieces => simp [hclose, List.countP_cons, opensLarge_cons hc]

theorem largeSegments_append (hbefore : '[' ∉ before) (t : Text) :
    largeSegments (before ++ t) = largeSegments t := by
  induction before with
  | nil => rfl
  | cons c before ih =>
    rw [List.mem_cons, not_or] at hbefore
    rw [List.cons_append, largeSegments_cons (Ne.symm hbefore.1), ih hbefore.2]

/-- A text without closing brackets is one segment, and that one is not ended. -/
theorem largeSegments_unclosed (ht : ']' ∉ t) : largeSegments t = 0 := by
  have hsplit : Text.splitWhen (· == ']') t = [t] := by
    apply Text.splitWhen_of_none
    intro c hc
    simpa using ne_of_mem_of_not_mem hc ht
  unfold largeSegments
  rw [hsplit]
  rfl

/-- **A bracketed span is one segment**, and those behind it follow. -/
theorem largeSegments_span (hinside : ']' ∉ inside) (rest : Text) :
    largeSegments ('[' :: inside ++ ']' :: rest)
      = (if 1000 ≤ inside.length then 1 else 0) + largeSegments rest := by
  have hsplit : Text.splitWhen (· == ']') ('[' :: inside) = ['[' :: inside] := by
    apply Text.splitWhen_of_none
    intro c hc
    rcases List.mem_cons.1 hc with rfl | hc
    · decide
    · simpa using ne_of_mem_of_not_mem hc hinside
  unfold largeSegments
  rw [Text.splitWhen_append (by simp), hsplit, List.singleton_append,
    List.dropLast_cons_of_ne_nil (Text.splitWhen_ne_nil _ _), List.countP_cons, Nat.add_comm]
  simp only [opensLarge_open_cons, decide_eq_true_eq]

/-! ## Rounds of the search -/

/-- What stands in front of the first character of a kind, and from there on. -/
theorem eq_of_dropWhile_bne {d : Char} (h : t.dropWhile (· != c) = d :: rest) :
    t = t.takeWhile (· != c) ++ c :: rest := by
  have hd : d = c := by
    simpa [h] using List.head_dropWhile_not (· != c) (l := t) (by simp [h])
  conv_lhs => rw [← List.takeWhile_append_dropWhile (p := (· != c)) (l := t), h, hd]

theorem notMem_takeWhile_bne (c : Char) (t : Text) : c ∉ t.takeWhile (· != c) := by
  intro hc
  simpa using List.mem_takeWhile_imp hc

theorem notMem_of_dropWhile_bne (h : t.dropWhile (· != c) = []) : c ∉ t := by
  intro hc
  simpa using List.dropWhile_eq_nil_iff.1 h c hc

/-- **What a round passes**: text that opens nothing, and the span. -/
theorem firstSpan?_eq_some (h : firstSpan? t = some (inside, rest)) :
    ∃ before, t = before ++ ('[' :: inside ++ ']' :: rest) ∧ '[' ∉ before ∧ ']' ∉ inside := by
  unfold firstSpan? at h
  split at h
  · cases h
  · rename_i behind hopen
    split at h
    · cases h
    · rename_i rest' hclose
      obtain ⟨rfl, rfl⟩ : behind.takeWhile (· != ']') = inside ∧ rest' = rest := by simpa using h
      have ht := eq_of_dropWhile_bne hopen
      have hbehind := eq_of_dropWhile_bne hclose
      refine ⟨t.takeWhile (· != '['), ?_, notMem_takeWhile_bne _ _, notMem_takeWhile_bne _ _⟩
      rw [List.cons_append, ← hbehind]
      exact ht

/-- **Why the search ends**: nothing is opened any more, or what is opened is not closed. -/
theorem firstSpan?_eq_none (h : firstSpan? t = none) :
    '[' ∉ t ∨ ∃ before behind, t = before ++ '[' :: behind ∧ '[' ∉ before ∧ ']' ∉ behind := by
  unfold firstSpan? at h
  split at h
  · rename_i hopen
    exact Or.inl (notMem_of_dropWhile_bne hopen)
  · rename_i behind hopen
    split at h
    · rename_i hclose
      exact Or.inr ⟨_, behind, eq_of_dropWhile_bne hopen, notMem_takeWhile_bne _ _, notMem_of_dropWhile_bne hclose⟩
    · cases h

theorem largeSegments_of_firstSpan? (h : firstSpan? t = some (inside, rest)) :
    largeSegments t = (if 1000 ≤ inside.length then 1 else 0) + largeSegments rest := by
  obtain ⟨before, rfl, hbefore, hinside⟩ := firstSpan?_eq_some h
  rw [largeSegments_append hbefore, largeSegments_span hinside]

theorem largeSegments_of_no_span (h : firstSpan? t = none) : largeSegments t = 0 := by
  rcases firstSpan?_eq_none h with hopen | ⟨before, behind, rfl, hbefore, hclose⟩
  · simpa [largeSegments, Text.splitWhen] using largeSegments_append hopen []
  · rw [largeSegments_append hbefore, largeSegments_unclosed (by simpa using hclose)]

/-- **Large arrays are large segments.** The search for spans counts, among the segments that end with a closing
bracket, those with at least a thousand characters behind their first opening bracket. It comes to an end, since
each round leaves it less text. -/
theorem largeArrays_eq_segments (t : Text) :
    largeArrays t = (Text.splitWhen (· == ']') t).dropLast.countP (fun segment => OpensLarge segment) ∧
      ∀ inside rest, firstSpan? t = some (inside, rest) → rest.length < t.length := by
  refine ⟨?_, fun inside rest h => length_lt_of_firstSpan? h⟩
  show largeArrays t = largeSegments t
  -- round by round, as the search goes
  fun_induction largeArrays t with
  | case1 t h => exact (largeSegments_of_no_span h).symm
  | case2 t inside rest h ih => rw [largeSegments_of_firstSpan? h, ih]

end CodeSurvey
