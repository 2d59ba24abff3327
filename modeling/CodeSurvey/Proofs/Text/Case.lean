import Mathlib.Data.List.Basic
import CodeSurvey.Text.Case

/-!
# Case change makes letters only

What case change makes out of a character is the character itself or a letter, and all letters come behind the marks
and digits of the first code points. So a mark, or the null character, is in a text after the change only if it was
there before.

* `HighRun`, `lowerRuns_high`, `upperRuns_high`: the tables lead behind these code points.
* `mem_of_mem_lower`, `mem_of_mem_upper`: what was there before.
* `lower_plain`, `upper_plain`: a text of plain characters, those below code point 128, changes character by character.
-/

namespace CodeSurvey.Text

variable {c d : Char} {t : Text} {long : List (Nat × List Nat)} {runs : List CaseRun}

/-- A code point of a character behind the marks and digits. -/
def IsHigh (n : Int) : Prop :=
  0x40 < n ∧ (n < 0xD800 ∨ 0xDFFF < n ∧ n < 0x110000)

instance (n : Int) : Decidable (IsHigh n) :=
  inferInstanceAs (Decidable (_ ∧ _))

/-- A run that leads behind the marks and digits, on one side of the code points that are no characters. -/
def HighRun (r : CaseRun) : Prop :=
  0x40 < r.first + r.shift ∧
    (r.last + r.shift < 0xD800 ∨ 0xDFFF < r.first + r.shift ∧ r.last + r.shift < 0x110000)

instance (r : CaseRun) : Decidable (HighRun r) :=
  inferInstanceAs (Decidable (_ ∧ _))

theorem lowerRuns_high : ∀ r ∈ lowerRuns, HighRun r := by
  decide +kernel

theorem upperRuns_high : ∀ r ∈ upperRuns, HighRun r := by
  decide +kernel

theorem lowerLong_high : ∀ e ∈ lowerLong, ∀ n ∈ e.2, IsHigh n := by
  decide +kernel

theorem upperLong_high : ∀ e ∈ upperLong, ∀ n ∈ e.2, IsHigh n := by
  decide +kernel

theorem toNat_ofNat_high {n : Nat} (h : IsHigh n) : 0x40 < (Char.ofNat n).toNat := by
  obtain ⟨hlow, hvalid⟩ := h
  have hchar : n.isValidChar := by
    unfold Nat.isValidChar
    omega
  have hn : (Char.ofNat n).toNat = n := by
    rw [Char.ofNat, dif_pos hchar]
    rfl
  omega

/-- The partner of a character is a letter. -/
theorem shiftCase_cases (hruns : ∀ r ∈ runs, HighRun r) (c : Char) :
    shiftCase runs c = c ∨ 0x40 < (shiftCase runs c).toNat := by
  unfold shiftCase
  simp only
  split
  · rename_i r hr
    obtain ⟨hlow, hrange⟩ := hruns r (List.mem_of_find?_eq_some hr)
    have hin := List.find?_some hr
    simp only [Bool.and_eq_true, decide_eq_true_eq] at hin
    obtain ⟨⟨hfirst, hlast⟩, -⟩ := hin
    right
    apply toNat_ofNat_high
    unfold IsHigh
    omega
  · exact Or.inl rfl

/-- **What case change makes of a character** is the character itself or letters. -/
theorem mem_changeCase_cases (hlong : ∀ e ∈ long, ∀ n ∈ e.2, IsHigh n) (hruns : ∀ r ∈ runs, HighRun r)
    (h : d ∈ changeCase long runs c) : d = c ∨ 0x40 < d.toNat := by
  unfold changeCase at h
  split at h
  · rename_i form hform
    obtain ⟨n, hn, rfl⟩ := List.mem_map.1 h
    obtain ⟨k, hk⟩ : ∃ k, (k, form) ∈ long := by
      obtain ⟨l, l', heq, -⟩ := List.lookup_eq_some_iff.1 hform
      exact ⟨c.toNat, by rw [heq]; simp⟩
    exact Or.inr (toNat_ofNat_high (hlong _ hk n hn))
  · rw [List.mem_singleton.1 h]
    exact shiftCase_cases hruns c

theorem mem_lowerFrom_cases : ∀ before, d ∈ lowerFrom before t → d ∈ t ∨ 0x40 < d.toNat := by
  induction t with
  | nil =>
    intro before h
    simp [lowerFrom] at h
  | cons c rest ih =>
    intro before h
    simp only [lowerFrom, List.mem_append] at h
    rcases h with h | h
    · split at h
      · -- both forms of the sigma are letters
        right
        rw [List.mem_singleton.1 h]
        split <;> decide
      · rcases mem_changeCase_cases lowerLong_high lowerRuns_high h with rfl | hhigh
        · exact Or.inl List.mem_cons_self
        · exact Or.inr hhigh
    · exact (ih _ h).imp_left (List.mem_cons_of_mem c)

/-- **Lower case brings in no mark.** -/
theorem mem_of_mem_lower (hd : d.toNat ≤ 0x40) (h : d ∈ lower t) : d ∈ t :=
  (mem_lowerFrom_cases [] h).resolve_right (by omega)

/-- **Upper case brings in no mark.** -/
theorem mem_of_mem_upper (hd : d.toNat ≤ 0x40) (h : d ∈ upper t) : d ∈ t := by
  unfold upper at h
  obtain ⟨c, hc, hdc⟩ := List.mem_flatMap.1 h
  rcases mem_changeCase_cases upperLong_high upperRuns_high hdc with rfl | hhigh
  · exact hc
  · omega

/-! ## Plain characters -/

/-- What holds of plain characters can be seen from a list of them. -/
theorem forall_plain {P : Char → Prop} (h : ∀ n < 0x80, P (Char.ofNat n)) (hc : c.toNat < 0x80) : P c := by
  have hP := h c.toNat hc
  rwa [Char.ofNat_toNat] at hP

/-- Of a table whose first run alone starts among the plain characters, only that run matters to them. -/
theorem changeCase_plain {near : CaseRun} (hlong : ∀ e ∈ long, 0x80 ≤ e.1) (hruns : ∀ r ∈ runs, 0x80 ≤ r.first)
    (hc : c.toNat < 0x80) : changeCase long (near :: runs) c = [shiftCase [near] c] := by
  have hlookup : long.lookup c.toNat = none := by
    rw [List.lookup_eq_none_iff]
    intro e he
    have := hlong e he
    simp only [bne_iff_ne]
    omega
  have hfind : runs.find? (fun r => r.first ≤ c.toNat && c.toNat ≤ r.last && (c.toNat - r.first) % r.stride == 0)
      = none := by
    rw [List.find?_eq_none]
    intro r hr hin
    have := hruns r hr
    simp only [Bool.and_eq_true, decide_eq_true_eq] at hin
    omega
  have hshift : shiftCase (near :: runs) c = shiftCase [near] c := by
    simp only [shiftCase]
    rw [show near :: runs = [near] ++ runs from rfl, List.find?_append, hfind, Option.or_none]
  rw [changeCase, hlookup, hshift]

theorem changeCase_lower_plain (hc : c.toNat < 0x80) : changeCase lowerLong lowerRuns c = [c.toLower] := by
  have hruns : lowerRuns = ⟨0x41, 0x5A, 1, 32⟩ :: lowerRuns.tail := rfl
  rw [hruns, changeCase_plain (by decide +kernel) (by decide +kernel) hc,
    forall_plain (P := fun c => shiftCase [⟨0x41, 0x5A, 1, 32⟩] c = c.toLower) (by decide +kernel) hc]

theorem changeCase_upper_plain (hc : c.toNat < 0x80) : changeCase upperLong upperRuns c = [c.toUpper] := by
  have hruns : upperRuns = ⟨0x61, 0x7A, 1, -32⟩ :: upperRuns.tail := rfl
  rw [hruns, changeCase_plain (by decide +kernel) (by decide +kernel) hc,
    forall_plain (P := fun c => shiftCase [⟨0x61, 0x7A, 1, -32⟩] c = c.toUpper) (by decide +kernel) hc]

theorem lowerFrom_plain : ∀ before, (∀ c ∈ t, c.toNat < 0x80) → lowerFrom before t = t.map Char.toLower := by
  induction t with
  | nil =>
    intro before _
    rfl
  | cons c rest ih =>
    intro before h
    have hc := h c List.mem_cons_self
    -- the sigma, whose form depends on what is around it, is not plain
    rw [lowerFrom, if_neg (by omega), changeCase_lower_plain hc, ih _ fun d hd => h d (List.mem_cons_of_mem c hd)]
    rfl

/-- **Lower case of plain characters**, one by one. -/
theorem lower_plain (h : ∀ c ∈ t, c.toNat < 0x80) : lower t = t.map Char.toLower :=
  lowerFrom_plain [] h

theorem upper_plain (hc : c.toNat < 0x80) : upper [c] = [c.toUpper] := by
  rw [upper, List.flatMap_singleton, changeCase_upper_plain hc]

end CodeSurvey.Text
