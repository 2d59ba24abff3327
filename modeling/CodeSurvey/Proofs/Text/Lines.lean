import Mathlib.Data.List.Basic
import CodeSurvey.Text.Blank

/-!
# Places and lines

Facts about the cuts of a text that every account of places rests on: slices, the lines of a text
and the numbers of the lines that hold its places.

* `joinLines_lines`, `lines_joinLines`: lines can be put together and taken apart again.
* `lineNumber_mono`, `lineNumber_add`: line numbers grow with the place, by the line ends passed.
* `lineEnd_le`, `le_lineEnd`: the end of a line lies in the text and not before the place.
-/

namespace CodeSurvey.Text

variable {t : Text} {i j k : Nat}

/-- A text that does not hold a character ends before it. -/
theorem exists_eq_append {ch : Char} {a b u v : Text} (h : a ++ ch :: b = u ++ v) (hu : ch ∉ u) :
    ∃ w, a = u ++ w ∧ v = w ++ ch :: b := by
  rcases List.append_eq_append_iff.1 h with ⟨w, rfl, hb⟩ | ⟨w, rfl, rfl⟩
  · cases w with
    | nil => exact ⟨[], by simp, by simpa using hb.symm⟩
    | cons d w =>
      obtain ⟨rfl, -⟩ : ch = d ∧ b = w ++ v := by simpa using hb
      simp at hu
  · exact ⟨w, rfl, rfl⟩

theorem splitWhen_ne_nil (accepts : Char → Bool) (t : Text) : splitWhen accepts t ≠ [] := by
  cases t with
  | nil => simp [splitWhen]
  | cons c rest =>
    unfold splitWhen
    cases splitWhen accepts rest with
    | nil => simp
    | cons piece pieces => simp only; split <;> simp

theorem join_cons_cons (separator a b : Text) (l : List Text) :
    join separator (a :: b :: l) = a ++ separator ++ join separator (b :: l) := by
  simp [join, List.intercalate]

theorem join_singleton (separator a : Text) : join separator [a] = a := by
  simp [join, List.intercalate]

theorem join_append_head (separator a b : Text) (l : List Text) :
    join separator ((a ++ b) :: l) = a ++ join separator (b :: l) := by
  cases l with
  | nil => simp [join_singleton]
  | cons c l => simp [join_cons_cons]

/-- Joining the lines of a text gives it back. -/
theorem joinLines_lines (t : Text) : joinLines (lines t) = t := by
  unfold joinLines lines
  induction t with
  | nil => rfl
  | cons c rest ih =>
    unfold splitWhen
    cases hsplit : splitWhen (· == '\n') rest with
    | nil => exact absurd hsplit (splitWhen_ne_nil _ _)
    | cons piece pieces =>
      rw [hsplit] at ih
      simp only
      split
      · rename_i hc
        rw [join_cons_cons, ih, beq_iff_eq.1 hc]
        rfl
      · rw [show c :: piece = [c] ++ piece from rfl, join_append_head, ih]
        rfl

/-- Lines with a line end behind each. -/
def unlines (ls : List Text) : Text :=
  ls.flatMap (· ++ ['\n'])

theorem unlines_cons (l : Text) (ls : List Text) : unlines (l :: ls) = l ++ '\n' :: unlines ls := by
  simp [unlines]

theorem joinLines_cons (l : Text) {ls : List Text} (h : ls ≠ []) :
    joinLines (l :: ls) = l ++ '\n' :: joinLines ls := by
  cases ls with
  | nil => exact absurd rfl h
  | cons b ls => simp [joinLines, join_cons_cons]

theorem joinLines_append (ls : List Text) {rest : List Text} (h : rest ≠ []) :
    joinLines (ls ++ rest) = unlines ls ++ joinLines rest := by
  induction ls with
  | nil => rfl
  | cons l ls ih =>
    rw [List.cons_append, joinLines_cons l (by simp [h]), ih, unlines_cons, List.append_assoc,
      List.cons_append]

theorem prefix_joinLines (ls rest : List Text) : joinLines ls <+: joinLines (ls ++ rest) := by
  induction ls with
  | nil => exact List.nil_prefix
  | cons l ls ih =>
    cases ls with
    | nil =>
      rw [List.cons_append, List.nil_append, joinLines, join_singleton]
      cases rest with
      | nil => simp [joinLines, join_singleton]
      | cons b rest => rw [joinLines_cons l (by simp)]; exact List.prefix_append _ _
    | cons b ls =>
      rw [List.cons_append, joinLines_cons l (by simp), joinLines_cons l (by simp)]
      exact (List.prefix_append_right_inj l).2 ((List.prefix_cons_inj _).2 ih)

theorem length_unlines {ls : List Text} (h : ls ≠ []) :
    (unlines ls).length = (joinLines ls).length + 1 := by
  induction ls with
  | nil => exact absurd rfl h
  | cons l ls ih =>
    cases ls with
    | nil => simp [unlines, joinLines, join_singleton]
    | cons b ls =>
      have hrest := ih (by simp)
      rw [unlines_cons, joinLines_cons l (by simp), List.length_append, List.length_append,
        List.length_cons, List.length_cons, hrest]
      rfl

/-- One line end for each line. -/
theorem count_unlines {ls : List Text} (h : ∀ l ∈ ls, '\n' ∉ l) :
    (unlines ls).count '\n' = ls.length := by
  induction ls with
  | nil => rfl
  | cons l ls ih =>
    rw [unlines_cons, List.count_append, List.count_cons_self,
      List.count_eq_zero.2 (h l List.mem_cons_self),
      ih fun x hx => h x (List.mem_cons_of_mem _ hx), List.length_cons]
    omega

/-- Without its last character, which is no line end, a text of lines has one line end less than
lines. -/
theorem count_dropLast_joinLines {ls : List Text} (hne : ls ≠ [])
    (h : ∀ l ∈ ls, '\n' ∉ l ∧ l ≠ []) :
    (joinLines ls).dropLast.count '\n' + 1 = ls.length := by
  obtain ⟨init, last, rfl⟩ := (List.eq_nil_or_concat ls).resolve_left hne
  rw [List.concat_eq_append] at h ⊢
  obtain ⟨hend, hlast⟩ := h last (by simp)
  rw [joinLines_append _ (by simp), joinLines, join_singleton, List.dropLast_append_of_ne_nil hlast,
    List.count_append, count_unlines fun l hl => (h l (by simp [hl])).1,
    List.count_eq_zero.2 fun hmem => hend ((List.dropLast_sublist _).subset hmem)]
  simp

theorem lines_append {l : Text} (h : '\n' ∉ l) (t : Text) :
    lines l = [l] ∧ lines (l ++ '\n' :: t) = l :: lines t := by
  unfold lines
  induction l with
  | nil =>
    refine ⟨rfl, ?_⟩
    rw [List.nil_append, splitWhen]
    cases hsplit : splitWhen (· == '\n') t with
    | nil => exact absurd hsplit (splitWhen_ne_nil _ _)
    | cons piece pieces => rfl
  | cons c l ih =>
    rw [List.mem_cons, not_or] at h
    obtain ⟨hone, hmore⟩ := ih h.2
    have hc : (c == '\n') = false := by simpa using Ne.symm h.1
    simp [splitWhen, hone, hmore, hc]

/-- **Lines that are joined can be taken apart again.** -/
theorem lines_joinLines {ls : List Text} (hne : ls ≠ []) (h : ∀ l ∈ ls, '\n' ∉ l) :
    lines (joinLines ls) = ls := by
  induction ls with
  | nil => exact absurd rfl hne
  | cons l ls ih =>
    have hl := lines_append (h l List.mem_cons_self)
    cases ls with
    | nil => simpa [joinLines, join_singleton] using (hl []).1
    | cons b ls =>
      rw [joinLines_cons l (by simp), (hl _).2,
        ih (by simp) fun x hx => h x (List.mem_cons_of_mem _ hx)]

/-- There is one line more than there are line ends. -/
theorem length_lines (t : Text) : (lines t).length = t.count '\n' + 1 := by
  unfold lines
  induction t with
  | nil => rfl
  | cons c rest ih =>
    unfold splitWhen
    cases hsplit : splitWhen (· == '\n') rest with
    | nil => exact absurd hsplit (splitWhen_ne_nil _ _)
    | cons piece pieces =>
      rw [hsplit] at ih
      simp only [List.length_cons] at ih
      simp only [List.count_cons]
      split <;> simp_all

/-! ## Line numbers -/

theorem lineNumber_pos (t : Text) (i : Nat) : 1 ≤ lineNumber t i :=
  Nat.le_add_left 1 _

/-- Between two places the line number grows by the line ends passed. -/
theorem lineNumber_add (h : i ≤ j) :
    lineNumber t j = lineNumber t i + (slice t i j).count '\n' := by
  unfold lineNumber slice
  obtain ⟨k, rfl⟩ := Nat.exists_eq_add_of_le h
  rw [List.take_add, List.count_append, Nat.add_sub_cancel_left]
  omega

theorem lineNumber_mono (h : i ≤ j) : lineNumber t i ≤ lineNumber t j := by
  rw [lineNumber_add h]
  exact Nat.le_add_right _ _

theorem lineNumber_le_length (t : Text) (i : Nat) : lineNumber t i ≤ (lines t).length := by
  rw [length_lines]
  unfold lineNumber
  have := (List.take_sublist i t).count_le '\n'
  omega

/-! ## Slices and searches -/

theorem occursIn_iff (needle t : Text) : occursIn needle t = true ↔ needle <:+: t := by
  induction t with
  | nil => simp [occursIn]
  | cons c rest ih =>
    rw [occursIn, Bool.or_eq_true, List.isPrefixOf_iff_prefix, ih, List.infix_cons_iff]

theorem length_slice (h : j ≤ t.length) : (slice t i j).length = j - i := by
  simp only [slice, List.length_take, List.length_drop]
  omega

theorem slice_dropLast (h : j ≤ t.length) : (slice t i j).dropLast = slice t i (j - 1) := by
  rw [List.dropLast_eq_take, length_slice h]
  simp only [slice, List.take_take]
  congr 1
  omega

theorem slice_append_drop (h : i ≤ j) : slice t i j ++ t.drop j = t.drop i := by
  have hdrop : t.drop j = (t.drop i).drop (j - i) := by
    rw [List.drop_drop, Nat.add_sub_cancel' h]
  rw [hdrop, slice, List.take_append_drop]

theorem isInfix_slice {a b : Nat} (hfirst : a ≤ i) (hlast : j ≤ b) : slice t i j <:+: slice t a b := by
  have hslice : slice t i j = ((slice t a b).drop (i - a)).take (j - i) := by
    unfold slice
    rw [List.drop_take, List.take_take, List.drop_drop, Nat.add_sub_cancel' hfirst]
    congr 1
    omega
  rw [hslice]
  exact (List.take_prefix _ _).isInfix.trans (List.drop_suffix _ _).isInfix

theorem getElem?_slice (h : i + k < j) : (slice t i j)[k]? = t[i + k]? := by
  rw [slice, List.getElem?_take_of_lt (by omega), List.getElem?_drop]

theorem mem_slice_iff {c : Char} : c ∈ slice t i j ↔ ∃ k, i ≤ k ∧ k < j ∧ t[k]? = some c := by
  rw [List.mem_iff_getElem?]
  constructor
  · rintro ⟨n, hn⟩
    have hlt : n < (slice t i j).length := (List.getElem?_eq_some_iff.1 hn).1
    have hle : (slice t i j).length ≤ j - i := List.length_take_le _ _
    rw [getElem?_slice (by omega)] at hn
    exact ⟨i + n, by omega, by omega, hn⟩
  · rintro ⟨k, hik, hkj, hk⟩
    refine ⟨k - i, ?_⟩
    rw [getElem?_slice (by omega), Nat.add_sub_cancel' hik, hk]

/-- **The first accepted character**: none in front of it is accepted. -/
theorem indexFrom?_eq_some_iff {accepts : Char → Bool} : indexFrom? accepts t i = some j ↔
    i ≤ j ∧ (∃ c, t[j]? = some c ∧ accepts c = true) ∧ ∀ c ∈ slice t i j, accepts c = false := by
  unfold indexFrom?
  rw [Option.map_eq_some_iff]
  constructor
  · rintro ⟨k, hk, rfl⟩
    obtain ⟨hlt, hacc, hbefore⟩ := List.findIdx?_eq_some_iff_getElem.1 hk
    refine ⟨Nat.le_add_right i k, ⟨(t.drop i)[k], ?_, hacc⟩, ?_⟩
    · rw [← List.getElem?_drop, List.getElem?_eq_getElem hlt]
    · intro c hc
      obtain ⟨n, hin, hn, hnc⟩ := mem_slice_iff.1 hc
      obtain ⟨m, rfl⟩ := Nat.exists_eq_add_of_le hin
      rw [← List.getElem?_drop, List.getElem?_eq_some_iff] at hnc
      obtain ⟨hm, rfl⟩ := hnc
      simpa using hbefore m (by omega)
  · rintro ⟨hij, ⟨c, hc, hacc⟩, hbefore⟩
    obtain ⟨k, rfl⟩ := Nat.exists_eq_add_of_le hij
    rw [← List.getElem?_drop, List.getElem?_eq_some_iff] at hc
    obtain ⟨hlt, rfl⟩ := hc
    refine ⟨k, List.findIdx?_eq_some_iff_getElem.2 ⟨hlt, hacc, fun m hm => ?_⟩, rfl⟩
    have hmem : (t.drop i)[m] ∈ slice t i (i + k) := by
      refine mem_slice_iff.2 ⟨i + m, by omega, by omega, ?_⟩
      rw [← List.getElem?_drop, List.getElem?_eq_getElem]
    rw [hbefore _ hmem]
    exact Bool.false_ne_true

theorem indexFrom?_spec {accepts : Char → Bool} (h : indexFrom? accepts t i = some j) :
    i ≤ j ∧ j < t.length ∧ ∃ c, t[j]? = some c ∧ accepts c = true := by
  obtain ⟨hle, ⟨c, hc, hacc⟩, -⟩ := indexFrom?_eq_some_iff.1 h
  exact ⟨hle, (List.getElem?_eq_some_iff.1 hc).1, c, hc, hacc⟩

theorem indexFrom?_eq_none_iff {accepts : Char → Bool} : indexFrom? accepts t i = none ↔
    ∀ j c, i ≤ j → t[j]? = some c → accepts c = false := by
  unfold indexFrom?
  rw [Option.map_eq_none_iff, List.findIdx?_eq_none_iff]
  constructor
  · intro h j c hij hc
    obtain ⟨k, rfl⟩ := Nat.exists_eq_add_of_le hij
    rw [← List.getElem?_drop] at hc
    exact h c (List.mem_of_getElem? hc)
  · intro h c hc
    obtain ⟨k, hk⟩ := List.mem_iff_getElem?.1 hc
    rw [List.getElem?_drop] at hk
    exact h (i + k) c (Nat.le_add_right i k) hk

/-- The first accepted place from a place on is the first one from each later place in front of it. -/
theorem indexFrom?_of_le {accepts : Char → Bool} (h : indexFrom? accepts t i = some k) (hij : i ≤ j) (hjk : j ≤ k) :
    indexFrom? accepts t j = some k := by
  obtain ⟨-, hchar, hbefore⟩ := indexFrom?_eq_some_iff.1 h
  refine indexFrom?_eq_some_iff.2 ⟨hjk, hchar, ?_⟩
  intro c hc
  obtain ⟨n, hjn, hnk, hn⟩ := mem_slice_iff.1 hc
  exact hbefore c (mem_slice_iff.2 ⟨n, Nat.le_trans hij hjn, hnk, hn⟩)

theorem indexFrom?_mono {accepts : Char → Bool} {n : Nat} (h : indexFrom? accepts t i = some k)
    (h' : indexFrom? accepts t j = some n) (hij : i ≤ j) : k ≤ n := by
  rcases Nat.le_total j k with hjk | hkj
  · rw [indexFrom?_of_le h hij hjk, Option.some.injEq] at h'
    exact Nat.le_of_eq h'
  · exact Nat.le_trans hkj (indexFrom?_spec h').1

theorem indexFrom?_none_of_le {accepts : Char → Bool} (h : indexFrom? accepts t i = none) (hij : i ≤ j) :
    indexFrom? accepts t j = none := by
  rw [indexFrom?_eq_none_iff] at h ⊢
  intro n c hjn
  exact h n c (Nat.le_trans hij hjn)

/-- A run of accepted characters ends where one is not accepted. -/
theorem takeWhile_append_eq {accepts : Char → Bool} {x y : Text} (hx : ∀ c ∈ x, accepts c = true)
    (hy : ∀ c ∈ y.head?, accepts c = false) : (x ++ y).takeWhile accepts = x := by
  rw [List.takeWhile_append_of_pos hx]
  cases y with
  | nil => simp
  | cons c y => simp [hy c (by simp)]

/-- The first accepted character, told by what stands in front of it. -/
theorem indexFrom?_of_append {accepts : Char → Bool} {x y : Text} {c : Char}
    (h : t.drop i = x ++ c :: y) (hx : ∀ d ∈ x, accepts d = false) (hc : accepts c = true) :
    indexFrom? accepts t i = some (i + x.length) := by
  have hnone : x.findIdx? accepts = none := by
    rw [List.findIdx?_eq_none_iff]
    exact hx
  unfold indexFrom?
  rw [h, List.findIdx?_append, hnone, List.findIdx?_cons, if_pos hc]
  simp

theorem lineEnd_le (t : Text) (i : Nat) : lineEnd t i ≤ t.length := by
  unfold lineEnd
  cases h : indexFrom? (· == '\n') t i with
  | none => simp
  | some j => simpa using Nat.le_of_lt (indexFrom?_spec h).2.1

theorem le_lineEnd (h : i ≤ t.length) : i ≤ lineEnd t i := by
  unfold lineEnd
  cases hj : indexFrom? (· == '\n') t i with
  | none => simpa using h
  | some j => simpa using (indexFrom?_spec hj).1

theorem length_trimLeft_le (t : Text) : (trimLeft t).length ≤ t.length :=
  (List.dropWhile_sublist _).length_le

end CodeSurvey.Text
