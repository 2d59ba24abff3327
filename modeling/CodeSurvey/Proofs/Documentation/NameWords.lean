import Mathlib.Tactic.Set
import CodeSurvey.Documentation.NameWords
import CodeSurvey.Proofs.Pattern.Every
import CodeSurvey.Proofs.Pattern.Excerpt
import CodeSurvey.Proofs.Source.Pieces
import CodeSurvey.Proofs.Text.Case
import CodeSurvey.Proofs.Text.Trim

/-!
# A description keeps every letter and digit

A name is cut into words, and the words become a sentence in lower case with spaces between them. For plain names,
made of the letters and digits of the first code points and of underscores, nothing is lost on the way: a word can be
read wherever a letter or digit stands, whatever follows it, so the words of a name leave no gap.

* `exists_word`: a word can be read at every letter and digit.
* `flatten_split`: the words of a name are the name without its underscores.
* `lower_describe`: a description in lower case.
* `describe?_keeps_letters`: a description without spaces and full stop is the name without underscores.
-/

namespace CodeSurvey

namespace Text

variable {c mark : Char} {t : Text}

theorem filter_bne_eq_self (h : mark ∉ t) : t.filter (· != mark) = t := by
  rw [List.filter_eq_self]
  intro c hc
  simpa using ne_of_mem_of_not_mem hc h

/-- Only a letter has another one in lower case. -/
theorem toLower_cases (hc : c.toNat < 0x80) : c.toLower = c ∨ c.isAlpha = true ∧ c.toLower.isAlpha = true :=
  forall_plain (P := fun c => c.toLower = c ∨ c.isAlpha = true ∧ c.toLower.isAlpha = true) (by decide +kernel) hc

theorem toLower_eq_iff (hmark : mark.isAlpha = false) (hc : c.toNat < 0x80) : c.toLower = mark ↔ c = mark := by
  rcases toLower_cases hc with hsame | ⟨hletter, hlower⟩
  · rw [hsame]
  · constructor
    · rintro rfl
      rw [hlower] at hmark
      cases hmark
    · rintro rfl
      rw [hletter] at hmark
      cases hmark

/-- What is no letter can be taken out before or after the change of case. -/
theorem filter_lower (hmark : mark.isAlpha = false) (ht : ∀ c ∈ t, c.toNat < 0x80) :
    (lower t).filter (· != mark) = lower (t.filter (· != mark)) := by
  have hfilter : ∀ c ∈ t.filter (· != mark), c.toNat < 0x80 := fun c hc => ht c (List.mem_of_mem_filter hc)
  rw [lower_plain ht, lower_plain hfilter, List.filter_map]
  congr 1
  apply List.filter_congr
  intro c hc
  simp [bne, toLower_eq_iff hmark (ht c hc)]

theorem toNat_lower_plain (ht : ∀ c ∈ t, c.toNat < 0x80) : ∀ c ∈ lower t, c.toNat < 0x80 := by
  rw [lower_plain ht]
  intro d hd
  obtain ⟨c, hc, rfl⟩ := List.mem_map.1 hd
  exact forall_plain (P := fun c => c.toLower.toNat < 0x80) (by decide +kernel) (ht c hc)

theorem lower_lower (ht : ∀ c ∈ t, c.toNat < 0x80) : lower (lower t) = lower t := by
  rw [lower_plain (toNat_lower_plain ht), lower_plain ht, List.map_map, List.map_inj_left]
  intro c hc
  exact forall_plain (P := fun c => c.toLower.toLower = c.toLower) (by decide +kernel) (ht c hc)

theorem lower_append_plain {u : Text} (ht : ∀ c ∈ t, c.toNat < 0x80) (hu : ∀ c ∈ u, c.toNat < 0x80) :
    lower (t ++ u) = lower t ++ lower u := by
  rw [lower_plain ht, lower_plain hu, lower_plain (List.forall_mem_append.2 ⟨ht, hu⟩), List.map_append]

theorem flatten_map_lower {pieces : List Text} (h : ∀ c ∈ pieces.flatten, c.toNat < 0x80) :
    (pieces.map lower).flatten = lower pieces.flatten := by
  have hpieces : pieces.map lower = pieces.map (List.map Char.toLower) := by
    apply List.map_congr_left
    intro piece hpiece
    apply lower_plain
    intro c hc
    exact h c (List.mem_flatten_of_mem hpiece hc)
  rw [hpieces, lower_plain h, List.map_flatten]

end Text

namespace NameWords

open Pattern

variable {limit : Nat} {r : Reading} {name t y : Text} {c ch : Char}

/-- A character of a plain name. -/
def isPlainName (c : Char) : Bool :=
  c.isAlphanum || c == '_'

theorem isAlphanum_iff : c.isAlphanum = true ↔ (c.isUpper = true ∨ c.isLower = true) ∨ c.isDigit = true := by
  have hdef : c.isAlphanum = (c.isUpper || c.isLower || c.isDigit) := rfl
  rw [hdef, Bool.or_eq_true, Bool.or_eq_true]

theorem toNat_lt_of_isPlainName (h : isPlainName c = true) : c.toNat < 0x80 := by
  have hlast : ∀ {last : UInt32}, last.toNat < 0x80 → c.val ≤ last → c.toNat < 0x80 :=
    fun hlast hc => Nat.lt_of_le_of_lt (UInt32.le_iff_toNat_le.1 hc) hlast
  rw [isPlainName, Bool.or_eq_true, isAlphanum_iff, beq_iff_eq] at h
  -- each class of letters and digits has a last code point
  rcases h with ((hupper | hlower) | hdigit) | rfl
  · exact hlast (by decide) (of_decide_eq_true hupper).2
  · exact hlast (by decide) (of_decide_eq_true (Bool.and_eq_true_iff.1 hlower).2)
  · exact hlast (by decide) (of_decide_eq_true (Bool.and_eq_true_iff.1 hdigit).2)
  · decide

theorem isDigit_of_plain (h : c.isDigit = true) : Text.isDigit c = true := by
  have hplain := toNat_lt_of_isPlainName (c := c) (by simp [isPlainName, isAlphanum_iff, h])
  exact Text.forall_plain (P := fun c => c.isDigit = true → Text.isDigit c = true) (by decide +kernel) hplain h

/-! ## Words that can be read -/

/-- One of the outcomes of a repetition takes only the first character. -/
theorem past_mem_plus {accepts : Char → Bool} (h : r.cursor.after = ch :: y) (hch : accepts ch = true) :
    r.past [ch] ∈ (plus (one accepts)).outcomes limit r := by
  have hone : r.past [ch] ∈ (one accepts).outcomes limit r := List.mem_of_mem_head? (First.one limit h hch)
  have hstay : r.past [ch] ∈ (span accepts).outcomes limit (r.past [ch]) := by
    rw [outcomes, List.mem_map]
    refine ⟨(r.past [ch]).cursor, ?_, rfl⟩
    rw [Cursor.reaches, List.mem_map]
    exact ⟨0, by simp, Cursor.advance_zero _⟩
  exact List.mem_flatMap.2 ⟨_, hone, hstay⟩

theorem mem_outcomes_word {s : Reading} : s ∈ word.outcomes limit r ↔
    s ∈ (plus (one Char.isUpper) ++ notAhead (one isSmall)).outcomes limit r ∨
      s ∈ (opt (one Char.isUpper) ++ plus (one isSmall)).outcomes limit r ∨
        s ∈ (plus (one Text.isDigit)).outcomes limit r := by
  rw [← List.mem_append, ← List.mem_append]
  rfl

/-- **A word can be read at every letter and digit**, whatever follows it. A capital alone is a word unless a small
letter follows; then the two start one. -/
theorem exists_word (h : r.cursor.after = ch :: y) (hch : ch.isAlphanum = true) :
    ∃ s, s ∈ word.outcomes limit r := by
  simp only [mem_outcomes_word]
  rcases isAlphanum_iff.1 hch with (hupper | hlower) | hdigit
  · have hbehind : (r.past [ch]).cursor.after = y := Reading.past_after h
    by_cases hsmall : (r.past [ch]).cursor.nextIs isSmall = true
    · obtain ⟨d, z, rfl⟩ : ∃ d z, y = d :: z := by
        cases y with
        | nil => simp [Cursor.nextIs, hbehind] at hsmall
        | cons d z => exact ⟨d, z, rfl⟩
      have hd : isSmall d = true := by simpa [Cursor.nextIs, hbehind] using hsmall
      have hcapital : r.past [ch] ∈ (opt (one Char.isUpper)).outcomes limit r :=
        List.mem_append_left _ (List.mem_of_mem_head? (First.one limit h hupper))
      exact ⟨_, Or.inr (Or.inl (List.mem_flatMap.2 ⟨_, hcapital, past_mem_plus hbehind hd⟩))⟩
    · -- of a run of capitals this takes only the first; the search takes more where it can
      have halone : r.past [ch] ∈ (notAhead (one isSmall)).outcomes limit (r.past [ch]) := by
        rw [outcomes, outcomes_one, if_neg hsmall]
        simp
      exact ⟨_, Or.inl (List.mem_flatMap.2 ⟨_, past_mem_plus h hupper, halone⟩)⟩
  · have hskip : r ∈ (opt (one Char.isUpper)).outcomes limit r := List.mem_append_right _ (List.mem_singleton_self r)
    exact ⟨_, Or.inr (Or.inl (List.mem_flatMap.2 ⟨_, hskip, past_mem_plus h hlower⟩))⟩
  · exact ⟨_, Or.inr (Or.inr (past_mem_plus h (isDigit_of_plain hdigit)))⟩

/-- **The words told by case leave no gap.** -/
theorem flatten_words (hname : ∀ c ∈ name, c.isAlphanum = true) :
    ((word.findAll name).map Match.text).flatten = name := by
  apply flatten_findAll (by decide)
  intro i hi
  rw [isSome_readAt?_iff]
  have hafter : (Cursor.ofPlace name i).after = name[i] :: name.drop (i + 1) := by
    rw [Cursor.ofPlace_after, List.drop_eq_getElem_cons hi]
  exact exists_word hafter (hname _ (List.getElem_mem hi))

/-- **The words of a name are the name without its underscores.** -/
theorem flatten_split (hname : ∀ c ∈ name, isPlainName c = true) :
    (split name).flatten = name.filter (· != '_') := by
  unfold split
  by_cases hmark : name.contains '_' = true
  · rw [if_pos hmark, List.flatten_filter_not_isEmpty, Text.flatten_splitWhen]
    rfl
  · rw [List.contains_iff_mem] at hmark
    have hplain : ∀ c ∈ name, c.isAlphanum = true := by
      intro c hc
      have hor := hname c hc
      rw [isPlainName, Bool.or_eq_true, beq_iff_eq] at hor
      exact hor.resolve_right fun h => hmark (h ▸ hc)
    rw [if_neg (by simpa using hmark), Text.filter_bne_eq_self hmark]
    split
    · simp
    · exact flatten_words hplain

/-! ## The description -/

theorem toNat_capitalized_plain (ht : ∀ c ∈ t, c.toNat < 0x80) : ∀ c ∈ capitalized t, c.toNat < 0x80 := by
  cases t with
  | nil => exact ht
  | cons c rest =>
    have hc := ht c List.mem_cons_self
    have hupper : c.toUpper.toNat < 0x80 :=
      Text.forall_plain (P := fun c => c.toUpper.toNat < 0x80) (by decide +kernel) hc
    rw [capitalized, Text.upper_plain hc, List.singleton_append, List.forall_mem_cons]
    exact ⟨hupper, fun d hd => ht d (List.mem_cons_of_mem c hd)⟩

/-- The capital that starts a sentence is gone in lower case. -/
theorem lower_capitalized (ht : ∀ c ∈ t, c.toNat < 0x80) : Text.lower (capitalized t) = Text.lower t := by
  rw [Text.lower_plain (toNat_capitalized_plain ht), Text.lower_plain ht]
  cases t with
  | nil => rfl
  | cons c rest =>
    have hc := ht c List.mem_cons_self
    rw [capitalized, Text.upper_plain hc, List.singleton_append, List.map_cons, List.map_cons,
      Text.forall_plain (P := fun c => c.toUpper.toLower = c.toLower) (by decide +kernel) hc]

theorem describe_of_words (h : split name ≠ []) :
    describe name = capitalized (Text.join [' '] ((split name).map Text.lower)) ++ ['.'] := by
  unfold describe
  split
  · contradiction
  · rfl

/-- **A description in lower case**, without its spaces. -/
theorem lower_describe (hname : ∀ c ∈ name, isPlainName c = true) (hwords : split name ≠ []) :
    (Text.lower (describe name)).filter (· != ' ') = Text.lower (name.filter (· != '_')) ++ ['.'] := by
  have hflat := flatten_split hname
  have hkept : ∀ c ∈ (split name).flatten, isPlainName c = true := by
    rw [hflat]
    exact fun c hc => hname c (List.mem_of_mem_filter hc)
  have hplain : ∀ c ∈ (split name).flatten, c.toNat < 0x80 := fun c hc => toNat_lt_of_isPlainName (hkept c hc)
  have hspace : ' ' ∉ (split name).flatten := fun hc => absurd (hkept _ hc) (by decide)
  have hmark : ' '.isAlpha = false := by decide
  rw [describe_of_words hwords]
  set sentence := Text.join [' '] ((split name).map Text.lower) with hsentence
  have hwritten : ∀ c ∈ sentence, c.toNat < 0x80 := by
    intro c hc
    rcases Text.mem_join hc with hsep | ⟨piece, hpiece, hin⟩
    · rw [List.mem_singleton.1 hsep]
      decide
    · apply Text.toNat_lower_plain hplain
      rw [← Text.flatten_map_lower hplain]
      exact List.mem_flatten_of_mem hpiece hin
  calc (Text.lower (capitalized sentence ++ ['.'])).filter (· != ' ')
      = (Text.lower sentence ++ ['.']).filter (· != ' ') := by
        rw [Text.lower_append_plain (toNat_capitalized_plain hwritten) (by simp), lower_capitalized hwritten]
        rfl
    _ = (Text.lower sentence).filter (· != ' ') ++ ['.'] := by
        rw [List.filter_append]
        rfl
    _ = Text.lower ((Text.lower (split name).flatten).filter (· != ' ')) ++ ['.'] := by
        rw [Text.filter_lower hmark hwritten, hsentence, Text.filter_join, Text.flatten_map_lower hplain]
    _ = Text.lower (split name).flatten ++ ['.'] := by
        rw [Text.filter_lower hmark hplain, Text.filter_bne_eq_self hspace, Text.lower_lower hplain]
    _ = Text.lower (name.filter (· != '_')) ++ ['.'] := by rw [hflat]

/-- **A description keeps every letter and digit.** For a name of letters, digits and underscores with at least one
letter or digit, there is a description, it ends with a full stop, and in lower case, without its spaces, it is the
name in lower case without underscores, and that full stop. A name without underscores is the sequence of its
words. -/
theorem describe?_keeps_letters (name : Text) (hname : ∀ c ∈ name, isPlainName c = true)
    (hsome : ∃ c ∈ name, c.isAlphanum = true) :
    ∃ description, describe? name = some description ∧ ['.'] <:+ description ∧
      (Text.lower description).filter (· != ' ') = (Text.lower name).filter (· != '_') ++ ['.'] ∧
      ('_' ∉ name → (split name).flatten = name) := by
  obtain ⟨c, hc, hletter⟩ := hsome
  have hkept : c ∈ (split name).flatten := by
    rw [flatten_split hname, List.mem_filter]
    refine ⟨hc, ?_⟩
    have hne : c ≠ '_' := by
      rintro rfl
      exact absurd hletter (by decide)
    simpa using hne
  have hwords : split name ≠ [] := by
    intro h
    simp [h] at hkept
  have hplain : ∀ c ∈ name, c.toNat < 0x80 := fun c hc => toNat_lt_of_isPlainName (hname c hc)
  refine ⟨describe name, ?_, ?_, ?_, ?_⟩
  · rw [describe?, if_neg]
    simpa using List.ne_nil_of_mem hc
  · rw [describe_of_words hwords]
    exact List.suffix_append _ _
  · rw [lower_describe hname hwords, Text.filter_lower (by decide) hplain]
  · intro hmark
    rw [flatten_split hname, Text.filter_bne_eq_self hmark]

/-- Capitals in a row, of which the last one starts a word, and digits. -/
theorem describe?_keeps_letters_acronym :
    describe? "parseHTTPResponse2".toList = some "Parse http response 2.".toList ∧
      ∃ description, describe? "parseHTTPResponse2".toList = some description ∧ ['.'] <:+ description ∧
        (Text.lower description).filter (· != ' ')
          = (Text.lower "parseHTTPResponse2".toList).filter (· != '_') ++ ['.'] ∧
        ('_' ∉ "parseHTTPResponse2".toList →
          (split "parseHTTPResponse2".toList).flatten = "parseHTTPResponse2".toList) :=
  ⟨by decide +kernel, describe?_keeps_letters _ (List.all_eq_true.1 (by decide)) ⟨'p', by decide, by decide⟩⟩

end NameWords

end CodeSurvey
