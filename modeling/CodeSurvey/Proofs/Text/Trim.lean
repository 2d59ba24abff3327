import Mathlib.Data.List.Basic
import Mathlib.Data.List.TakeWhile
import CodeSurvey.Proofs.Text.Lines
import CodeSurvey.Text.Word

/-!
# Blanks

What is cut off a text when the blanks around it are dropped, what is left, and which characters are
no blanks.

* `trim_eq_self_iff`: a text is trimmed if no blank stands at either end.
* `trim_pad`: blanks around a trimmed text are cut off.
* `trim_of_no_blank`: a text without blanks stays as it is.
* `trim_joinLines`: lines that are joined and trimmed lose no line.
* `words_append`: the words on both sides of a blank.
* `isBlank_of_isWord`: word characters are no blanks.
-/

namespace CodeSurvey.Text

variable {a b t : Text}

theorem isBlank_space : ∀ c ∈ [' '], isBlank c = true :=
  List.all_eq_true.1 (by decide)

theorem trimLeft_append (ha : ∀ c ∈ a, isBlank c = true) (t : Text) :
    trimLeft (a ++ t) = trimLeft t := by
  unfold trimLeft
  exact List.dropWhile_append_of_pos ha

theorem trimRight_append (hb : ∀ c ∈ b, isBlank c = true) (t : Text) :
    trimRight (t ++ b) = trimRight t := by
  unfold trimRight
  rw [List.reverse_append, List.dropWhile_append_of_pos (by simpa using hb)]

theorem trimLeft_eq_self_iff : trimLeft t = t ↔ ∀ c ∈ t.head?, isBlank c = false := by
  unfold trimLeft
  rw [List.dropWhile_eq_self_iff]
  cases t <;> simp

theorem trimRight_eq_self_iff : trimRight t = t ↔ ∀ c ∈ t.getLast?, isBlank c = false := by
  have := trimLeft_eq_self_iff (t := t.reverse)
  rw [List.head?_reverse] at this
  rw [← this]
  unfold trimRight trimLeft
  rw [← List.reverse_inj, List.reverse_reverse]

/-- **A text is trimmed if no blank stands at either end.** -/
theorem trim_eq_self_iff :
    trim t = t ↔ (∀ c ∈ t.head?, isBlank c = false) ∧ ∀ c ∈ t.getLast?, isBlank c = false := by
  rw [← trimLeft_eq_self_iff, ← trimRight_eq_self_iff]
  constructor
  · intro h
    have hright : List.Sublist (trim t) (trimLeft t) := by
      unfold trim trimRight
      rw [← List.reverse_sublist, List.reverse_reverse]
      exact List.dropWhile_sublist _
    have hleft : trimLeft t = t := 
      (List.dropWhile_sublist _).antisymm (by rwa [h] at hright)
    exact ⟨hleft, by rwa [trim, hleft] at h⟩
  · rintro ⟨hleft, hright⟩
    rw [trim, hleft, hright]

/-- Blanks around a trimmed text are cut off. -/
theorem trim_pad (ha : ∀ c ∈ a, isBlank c = true) (hb : ∀ c ∈ b, isBlank c = true)
    (ht : trim t = t) : trim (a ++ t ++ b) = t := by
  obtain ⟨hhead, hlast⟩ := trim_eq_self_iff.1 ht
  unfold trim
  rw [List.append_assoc, trimLeft_append ha]
  cases t with
  | nil =>
    have : trimLeft b = [] := by
      unfold trimLeft; exact List.dropWhile_eq_nil_iff.2 hb
    simp [this, trimRight]
  | cons c rest =>
    rw [trimLeft_eq_self_iff.2 (by simpa using hhead), trimRight_append hb,
      trimRight_eq_self_iff.2 hlast]

/-- What stands between two trimmed texts does not matter. -/
theorem trim_between (ha : trim a = a) (hb : trim b = b) (ha' : a ≠ []) (hb' : b ≠ []) (m : Text) :
    trim (a ++ (m ++ b)) = a ++ (m ++ b) := by
  rw [trim_eq_self_iff] at ha hb ⊢
  rw [List.head?_append_of_ne_nil _ ha', ← List.append_assoc, List.getLast?_append_of_ne_nil _ hb']
  exact ⟨ha.1, hb.2⟩

theorem trim_of_no_blank (h : ∀ c ∈ t, isBlank c = false) : trim t = t :=
  trim_eq_self_iff.2 ⟨fun c hc => h c (List.mem_of_mem_head? hc),
    fun c hc => h c (List.mem_of_mem_getLast? hc)⟩

/-! ## Words -/

theorem splitWhen_append {accepts : Char → Bool} {c : Char} (hc : accepts c = true) (a b : Text) :
    splitWhen accepts (a ++ c :: b) = splitWhen accepts a ++ splitWhen accepts b := by
  obtain ⟨y, ys, hb⟩ := List.exists_cons_of_ne_nil (splitWhen_ne_nil accepts b)
  induction a with
  | nil => simp [splitWhen, hb, hc]
  | cons d a ih =>
    obtain ⟨x, xs, ha⟩ := List.exists_cons_of_ne_nil (splitWhen_ne_nil accepts a)
    rw [ha, hb, List.cons_append] at ih
    by_cases hd : accepts d = true
    · simp [splitWhen, ih, ha, hb, hd]
    · simp [splitWhen, ih, ha, hb, hd]

/-- **The words of two texts with a blank between them are those of the one and those of the other.** -/
theorem words_append {c : Char} (hc : isBlank c = true) (a b : Text) :
    words (a ++ c :: b) = words a ++ words b := by
  unfold words
  rw [splitWhen_append hc, List.filter_append]

/-- A text without accepted characters is one piece. -/
theorem splitWhen_of_none {accepts : Char → Bool} (h : ∀ c ∈ t, accepts c = false) :
    splitWhen accepts t = [t] := by
  induction t with
  | nil => rfl
  | cons c t ih =>
    rw [splitWhen, ih fun d hd => h d (List.mem_cons_of_mem _ hd)]
    simp [h c List.mem_cons_self]

/-- The pieces hold all that does not separate. -/
theorem flatten_splitWhen (accepts : Char → Bool) (t : Text) :
    (splitWhen accepts t).flatten = t.filter fun c => !accepts c := by
  induction t with
  | nil => rfl
  | cons c t ih =>
    obtain ⟨piece, pieces, hsplit⟩ := List.exists_cons_of_ne_nil (splitWhen_ne_nil accepts t)
    rw [hsplit, List.flatten_cons] at ih
    rw [splitWhen, hsplit]
    by_cases hc : accepts c = true
    · simp [hc, ih]
    · simp [hc, ih]

/-- Without the separators, joined pieces follow each other. -/
theorem filter_join (c : Char) (pieces : List Text) :
    (join [c] pieces).filter (· != c) = pieces.flatten.filter (· != c) := by
  induction pieces with
  | nil => rfl
  | cons a l ih =>
    cases l with
    | nil => simp [join_singleton]
    | cons b l =>
      rw [join_cons_cons, List.filter_append, ih]
      simp

/-- A text without blanks is a word. -/
theorem words_of_no_blank (hne : t ≠ []) (h : ∀ c ∈ t, isBlank c = false) : words t = [t] := by
  rw [words, splitWhen_of_none h]
  simp [hne]

/-! ## Code points -/

/-- The runs between the bounds of a set. -/
def runs : List Nat → List (Nat × Nat)
  | a :: b :: bounds => (a, b) :: runs bounds
  | _ => []

/-- A member of a set with as many ends as starts lies in one of its runs. -/
theorem exists_run {n : Nat} (bounds : List Nat) (heven : bounds.length % 2 = 0)
    (h : inRuns bounds n = true) : ∃ r ∈ runs bounds, ∃ k < r.2 - r.1, n = r.1 + k := by
  unfold inRuns at h
  induction bounds using runs.induct with
  | case1 a b bounds ih =>
    simp only [inRunsFrom] at h
    split at h
    · simp at h
    · rename_i ha
      split at h
      · exact ⟨(a, b), List.mem_cons_self, n - a, by simp only; omega, by simp only; omega⟩
      · obtain ⟨r, hr, hk⟩ :=
          ih (by simp only [List.length_cons] at heven; omega) (by simpa using h)
        exact ⟨r, List.mem_cons_of_mem _ hr, hk⟩
  | case2 bounds hshort =>
    match bounds with
    | [] => simp [inRunsFrom] at h
    | [_] => simp at heven
    | a :: b :: bounds => exact absurd rfl (hshort a b bounds)

/-- A word character is no blank. -/
theorem isBlank_of_isWord {c : Char} (h : isWord c = true) : isBlank c = false := by
  by_contra hblank
  obtain ⟨r, hr, k, hk, hn⟩ := exists_run blankBounds rfl (by simpa [isBlank] using hblank)
  have hnone : ∀ r ∈ runs blankBounds, ∀ k < r.2 - r.1,
      isWord (Char.ofNat (r.1 + k)) = false := by decide +kernel
  rw [← Char.ofNat_toNat c, hn, hnone r hr k hk] at h
  simp at h

theorem isWord_of_isBlank {c : Char} (h : isBlank c = true) : isWord c = false := by
  by_contra hword
  rw [isBlank_of_isWord (by simpa using hword)] at h
  cases h

/-- A letter is a word character. -/
theorem isWord_of_isAlpha {c : Char} (h : c.isAlpha = true) : isWord c = true := by
  have hcase : (c.isUpper || c.isLower) = true := h
  have halphanum : c.isAlphanum = true := Bool.or_eq_true_iff.2 (Or.inl h)
  -- the letters end with the small ones
  have hle : c.val ≤ 'z'.val := by
    rcases Bool.or_eq_true_iff.1 hcase with hupper | hlower
    · have hupper : c.val ≤ 'Z'.val := (of_decide_eq_true hupper).2
      exact Nat.le_trans hupper (by decide)
    · exact of_decide_eq_true (Bool.and_eq_true_iff.1 hlower).2
  have hascii : c.toNat < 0x80 := Nat.lt_of_le_of_lt hle (by decide)
  simp [isWord, isAlphanumeric, hascii, halphanum]

theorem mem_of_mem_trim {c : Char} (h : c ∈ trim t) : c ∈ t := by
  unfold trim trimRight trimLeft at h
  rw [List.mem_reverse] at h
  have h1 := (List.dropWhile_sublist _).subset h
  rw [List.mem_reverse] at h1
  exact (List.dropWhile_sublist _).subset h1

/-- A character that is not accepted is not dropped with those that are. -/
theorem mem_dropWhile_of_mem {accepts : Char → Bool} {c : Char} (hc : accepts c = false) (h : c ∈ t) :
    c ∈ t.dropWhile accepts := by
  rw [← List.takeWhile_append_dropWhile (p := accepts) (l := t), List.mem_append] at h
  rcases h with h | h
  · have haccepts := List.mem_takeWhile_imp h
    rw [hc] at haccepts
    cases haccepts
  · exact h

/-- A character that is no blank is not cut off. -/
theorem mem_trimLeft_of_mem {c : Char} (hc : isBlank c = false) (h : c ∈ t) : c ∈ trimLeft t :=
  mem_dropWhile_of_mem hc h

theorem mem_trimRight_of_mem {c : Char} (hc : isBlank c = false) (h : c ∈ t) : c ∈ trimRight t :=
  List.mem_reverse.2 (mem_dropWhile_of_mem hc (List.mem_reverse.2 h))

theorem mem_trim_of_mem {c : Char} (hc : isBlank c = false) (h : c ∈ t) : c ∈ trim t :=
  mem_trimRight_of_mem hc (mem_trimLeft_of_mem hc h)

/-! ## Texts that are not blank -/

theorem trimLeft_ne_nil_iff : trimLeft t ≠ [] ↔ ∃ c ∈ t, isBlank c = false := by
  unfold trimLeft
  rw [Ne, List.dropWhile_eq_nil_iff]
  simp

theorem trimRight_ne_nil_iff : trimRight t ≠ [] ↔ ∃ c ∈ t, isBlank c = false := by
  have hreverse := trimLeft_ne_nil_iff (t := t.reverse)
  simp only [List.mem_reverse] at hreverse
  rw [← hreverse, trimRight, trimLeft, Ne, List.reverse_eq_nil_iff]

theorem trim_ne_nil_iff : trim t ≠ [] ↔ ∃ c ∈ t, isBlank c = false := by
  constructor
  · intro h
    obtain ⟨c, hc, hblank⟩ := trimRight_ne_nil_iff.1 h
    exact ⟨c, (List.dropWhile_sublist _).subset hc, hblank⟩
  · intro h
    obtain ⟨c, hc, hblank⟩ := h
    exact List.ne_nil_of_mem (mem_trim_of_mem hblank hc)

theorem trimLeft_append_of_ne_nil (h : trimLeft a ≠ []) (b : Text) : trimLeft (a ++ b) = trimLeft a ++ b := by
  unfold trimLeft at h ⊢
  rw [List.dropWhile_append, if_neg (by simpa using h)]

theorem trimRight_append_of_ne_nil (h : trimRight b ≠ []) (a : Text) : trimRight (a ++ b) = a ++ trimRight b := by
  unfold trimRight at h ⊢
  rw [Ne, List.reverse_eq_nil_iff] at h
  rw [List.reverse_append, List.dropWhile_append, if_neg (by simpa using h), List.reverse_append,
    List.reverse_reverse]

/-- **Joined lines are trimmed within the first and the last of them**, if these are not blank. -/
theorem trim_joinLines (mid : List Text) (ha : ∃ c ∈ a, isBlank c = false) (hb : ∃ c ∈ b, isBlank c = false) :
    trim (joinLines (a :: (mid ++ [b]))) = joinLines (trimLeft a :: (mid ++ [trimRight b])) := by
  have hjoin : ∀ x y : Text, joinLines (x :: (mid ++ [y])) = x ++ '\n' :: unlines mid ++ y := by
    intro x y
    rw [joinLines_cons x (by simp), joinLines_append mid (by simp), joinLines, join_singleton]
    simp
  rw [hjoin, hjoin, trim, List.append_assoc, trimLeft_append_of_ne_nil (trimLeft_ne_nil_iff.2 ha),
    ← List.append_assoc, trimRight_append_of_ne_nil (trimRight_ne_nil_iff.2 hb)]

end CodeSurvey.Text
