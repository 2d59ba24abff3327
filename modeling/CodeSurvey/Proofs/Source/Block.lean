import Mathlib.Data.List.TakeWhile
import CodeSurvey.Proofs.Text.Lines
import CodeSurvey.Source.Block

/-!
# Blocks lie in the text

However a body is told, and however broken the text is, the body starts at the end of the signature
or later, and body and block end in the text, in this order.

* `Within`: a block lies between a place and the end of a text.
* `braced_within`, `indented_within`: both ways to tell a body keep to that.
* `opener_le_stop`: the brace or the arrow that opens a body belongs to the block.
* `block_within`: and so does every language.
-/

namespace CodeSurvey

namespace Block

/-- A block that lies in a text, behind a place. -/
structure Within (b : Block) (place : Nat) (t : Text) : Prop where
  place_le : place ≤ b.bodyStart
  start_le : b.bodyStart ≤ b.bodyEnd
  end_le : b.bodyEnd ≤ b.stop
  stop_le : b.stop ≤ t.length

variable {t : Text} {place : Nat}

theorem Within.place_le_stop {b : Block} (h : b.Within place t) : place ≤ b.stop :=
  Nat.le_trans h.place_le (Nat.le_trans h.start_le h.end_le)

/-! ## Braces -/

/-- The closing brace comes behind the place, strictly so once a brace is open. -/
theorem closeFrom?_spec : ∀ {text : Text} {depth : Int} {place j : Nat},
    closeFrom? depth place text = some j → place ≤ j ∧ j < place + text.length := by
  intro text
  induction text with
  | nil => intro depth place j h; simp [closeFrom?] at h
  | cons c rest ih =>
    intro depth place j h
    simp only [List.length_cons]
    unfold closeFrom? at h
    split at h
    · have := ih h; omega
    · split at h
      · split at h
        · simp only [Option.some.injEq] at h; omega
        · have := ih h; omega
      · have := ih h; omega

theorem standsAt_lt {c : Char} (h : standsAt [c] t place = true) : place < t.length := by
  unfold standsAt at h
  cases hdrop : t.drop place with
  | nil => rw [hdrop] at h; simp at h
  | cons x rest =>
    have := congrArg List.length hdrop
    simp only [List.length_drop, List.length_cons] at this
    omega

theorem openBrace?_spec {i : Nat} (h : openBrace? t place = some i) :
    place ≤ i ∧ i < t.length ∧ standsAt ['{'] t i = true := by
  unfold openBrace? at h
  rw [Option.filter_eq_some_iff] at h
  obtain ⟨hle, hlt, -⟩ := Text.indexFrom?_spec h.1
  exact ⟨hle, hlt, h.2⟩

/-- The brace that closes one at `i` comes after it. -/
theorem matchingBrace?_spec {i j : Nat} (hopen : standsAt ['{'] t i = true)
    (h : matchingBrace? t i = some j) : i < j ∧ j < t.length := by
  have hlt := standsAt_lt hopen
  unfold matchingBrace? at h
  obtain ⟨c, rest, hdrop⟩ : ∃ c rest, t.drop i = c :: rest :=
    List.exists_cons_of_length_pos (by rw [List.length_drop]; omega)
  have hc : c = '{' := by
    unfold standsAt at hopen
    rw [hdrop] at hopen
    simpa using Eq.symm (by simpa using hopen : '{' = c)
  have hlen := congrArg List.length hdrop
  simp only [List.length_drop, List.length_cons] at hlen
  rw [hdrop, closeFrom?, if_pos (by simp [hc])] at h
  have := closeFrom?_spec h
  omega

theorem enclosed_within (h : place ≤ t.length) : (enclosed t place).Within place t := by
  unfold enclosed
  split
  · exact ⟨Nat.le_refl _, Nat.le_refl _, Nat.le_refl _, h⟩
  · rename_i i hi
    obtain ⟨hle, hlt, hopen⟩ := openBrace?_spec hi
    split
    · exact ⟨by simp only; omega, by simp only; omega, Nat.le_refl _, Nat.le_refl _⟩
    · rename_i j hj
      obtain ⟨hij, hjt⟩ := matchingBrace?_spec hopen hj
      exact ⟨by simp only; omega, by simp only; omega, by simp only; omega, by simp only; omega⟩

theorem expression_within (h : place ≤ t.length) : (expression t place).Within place t := by
  have hstop : place ≤ (Text.indexFrom? (fun c => c == ';' || c == '\n') t place).getD t.length ∧
      (Text.indexFrom? (fun c => c == ';' || c == '\n') t place).getD t.length ≤ t.length := by
    cases hidx : Text.indexFrom? (fun c => c == ';' || c == '\n') t place with
    | none => exact ⟨by simpa using h, by simp⟩
    | some j =>
      have := Text.indexFrom?_spec hidx
      simp only [Option.getD_some]
      omega
  unfold expression
  simp only
  split
  · rename_i hsemi
    have := standsAt_lt hsemi
    exact ⟨Nat.le_refl _, hstop.1, Nat.le_succ _, this⟩
  · exact ⟨Nat.le_refl _, hstop.1, Nat.le_refl _, hstop.2⟩

theorem skipBlanks_le (h : place ≤ t.length) :
    place ≤ skipBlanks t place ∧ skipBlanks t place ≤ t.length := by
  unfold skipBlanks
  have : ((t.drop place).takeWhile Text.isBlank).length ≤ (t.drop place).length :=
    (List.takeWhile_sublist _).length_le
  rw [List.length_drop] at this
  omega

theorem Within.mono {b : Block} {place' : Nat} (h : b.Within place' t) (hle : place ≤ place') :
    b.Within place t :=
  ⟨Nat.le_trans hle h.place_le, h.start_le, h.end_le, h.stop_le⟩

/-- **A body told by braces lies in the text.** -/
theorem braced_within (start : Nat) (h : place ≤ t.length) :
    (braced t start place).Within place t := by
  obtain ⟨hskip, hskip'⟩ := skipBlanks_le h
  unfold braced
  simp only
  split
  · rename_i harrow
    have hlen : skipBlanks t place + 2 ≤ t.length := by
      unfold standsAt at harrow
      have := (List.isPrefixOf_iff_prefix.1 harrow).length_le
      simp only [List.length_cons, List.length_nil, List.length_drop] at this
      omega
    split
    · exact enclosed_within h
    · obtain ⟨hle, hle'⟩ := skipBlanks_le hlen
      exact (expression_within hle').mono (by omega)
  · split
    · exact (expression_within hskip').mono hskip
    · exact enclosed_within h

/-! ## What opens a body belongs to the block -/

variable {b y : Text}

theorem skipBlanks_of_append (h : t.drop place = b ++ y) (hb : ∀ c ∈ b, Text.isBlank c = true)
    (hy : ∀ c ∈ y.head?, Text.isBlank c = false) : skipBlanks t place = place + b.length := by
  unfold skipBlanks
  rw [h, Text.takeWhile_append_eq hb hy]

theorem standsAt_of_append {needle : Text} (h : t.drop place = b ++ (needle ++ y)) :
    standsAt needle t (place + b.length) = true := by
  unfold standsAt
  rw [← List.drop_drop, h, List.drop_left, List.isPrefixOf_iff_prefix]
  exact List.prefix_append _ _

/-- A brace behind characters that are neither brace nor semicolon is in the block. -/
theorem brace_lt_stop_enclosed (h : t.drop place = b ++ '{' :: y)
    (hb : ∀ c ∈ b, c ≠ '{' ∧ c ≠ ';') : place + b.length < (enclosed t place).stop := by
  have hindex : Text.indexFrom? (fun c => c == '{' || c == ';') t place
      = some (place + b.length) :=
    Text.indexFrom?_of_append h (fun c hc => by simp [hb c hc]) (by decide)
  have hstands : standsAt ['{'] t (place + b.length) = true := standsAt_of_append h
  have hopen : openBrace? t place = some (place + b.length) := by
    rw [openBrace?, hindex, Option.filter_some, if_pos hstands]
  have hlt := standsAt_lt hstands
  unfold enclosed
  rw [hopen]
  simp only
  split
  · exact hlt
  · rename_i j hj
    have := (matchingBrace?_spec hstands hj).1
    simp only
    omega

/-- A brace that only blanks separate from the signature is in the block. -/
theorem brace_lt_stop (start : Nat) (h : t.drop place = b ++ '{' :: y)
    (hb : ∀ c ∈ b, Text.isBlank c = true) : place + b.length < (braced t start place).stop := by
  have hskip := skipBlanks_of_append h hb (by simpa using (by decide : Text.isBlank '{' = false))
  have hstands : standsAt ['{'] t (place + b.length) = true := standsAt_of_append h
  have harrow : standsAt ['=', '>'] t (place + b.length) = false := by
    unfold standsAt
    rw [← List.drop_drop, h, List.drop_left]
    rfl
  unfold braced
  simp only [hskip, harrow, hstands, Bool.not_true, Bool.and_false, Bool.false_eq_true, if_false]
  refine brace_lt_stop_enclosed h fun c hc => ⟨?_, ?_⟩ <;> rintro rfl <;>
    exact absurd (hb _ hc) (by decide)

/-- An arrow that only blanks separate from the signature is in the block. -/
theorem arrow_lt_stop (start : Nat) (h : t.drop place = b ++ '=' :: '>' :: y)
    (hb : ∀ c ∈ b, Text.isBlank c = true) :
    place + b.length + 1 < (braced t start place).stop := by
  have hskip := skipBlanks_of_append h hb (by simpa using (by decide : Text.isBlank '=' = false))
  have harrow : standsAt ['=', '>'] t (place + b.length) = true := standsAt_of_append h
  have hbehind : t.drop (place + b.length + 2) = y := by
    rw [← List.drop_drop, ← List.drop_drop, h, List.drop_left]
    rfl
  have hlen : place + b.length + 2 ≤ t.length := by
    have := congrArg List.length h
    simp only [List.length_drop, List.length_append, List.length_cons] at this
    omega
  obtain ⟨hle, hle'⟩ := skipBlanks_le hlen
  unfold braced
  simp only [hskip, harrow, if_true]
  split
  · -- between the signature and the brace there are blanks and the arrow
    rename_i hstands
    obtain ⟨z, hz⟩ := List.takeWhile_prefix (l := y) Text.isBlank
    obtain ⟨rest, hrest⟩ : ∃ rest, z = '{' :: rest := by
      unfold standsAt skipBlanks at hstands
      rw [← List.drop_drop, hbehind] at hstands
      have hdrop := congrArg (List.drop (y.takeWhile Text.isBlank).length) hz
      rw [List.drop_left] at hdrop
      rw [← hdrop] at hstands
      obtain ⟨rest, hrest⟩ := List.isPrefixOf_iff_prefix.1 hstands
      exact ⟨rest, hrest.symm⟩
    rw [hrest] at hz
    have hsplit : t.drop place = (b ++ ['=', '>'] ++ y.takeWhile Text.isBlank) ++ '{' :: rest := by
      rw [h, List.append_assoc, hz, List.append_assoc]
      rfl
    have hlt := brace_lt_stop_enclosed hsplit fun c hc => ?_
    · simp only [List.length_append, List.length_cons, List.length_nil] at hlt
      omega
    · have hblank : ∀ d, Text.isBlank d = true → d ≠ '{' ∧ d ≠ ';' := by
        refine fun d hd => ⟨?_, ?_⟩ <;> rintro rfl <;> exact absurd hd (by decide)
      simp only [List.mem_append, List.mem_cons, List.not_mem_nil, or_false] at hc
      rcases hc with (hc | rfl | rfl) | hc
      · exact hblank c (hb c hc)
      · decide
      · decide
      · exact hblank c (List.mem_takeWhile_imp hc)
  · have := (expression_within hle').place_le_stop
    omega

/-- What opens a body: a brace or an arrow, behind blanks. -/
def Opener (x : Text) : Prop :=
  ∃ b, (∀ c ∈ b, Text.isBlank c = true) ∧ (x = b ++ ['{'] ∨ x = b ++ ['=', '>'])

/-- **What opens a body belongs to its block.** -/
theorem opener_le_stop {x : Text} (hx : Opener x) (start : Nat) (h : t.drop place = x ++ y) :
    place + x.length ≤ (braced t start place).stop := by
  obtain ⟨b, hb, rfl | rfl⟩ := hx
  · rw [List.append_assoc] at h
    rw [List.length_append]
    exact brace_lt_stop start h hb
  · rw [List.append_assoc] at h
    rw [List.length_append]
    exact arrow_lt_stop start h hb

/-! ## Indentation -/

/-- The end of an indented body is the one given, or lies behind the place and in the lines. -/
theorem contentEnd?_spec {outer : Nat} : ∀ {lines : List Text} {inner last : Option Nat}
    {place stop : Nat}, contentEnd? outer inner last place lines = some stop →
    last = some stop ∨ place < stop ∧ stop ≤ place + (Text.joinLines lines).length := by
  intro lines
  induction lines with
  | nil => intro inner last place stop h; exact Or.inl h
  | cons line rest ih =>
    intro inner last place stop h
    -- how far the lines reach, and how far those behind the first one do
    have hlen : line.length ≤ (Text.joinLines (line :: rest)).length ∧
        (rest ≠ [] → (Text.joinLines (line :: rest)).length
          = line.length + 1 + (Text.joinLines rest).length) := by
      unfold Text.joinLines
      cases rest with
      | nil => simp [Text.join_singleton]
      | cons a l => simp [Text.join_cons_cons]; omega
    have hrest : ∀ {inner' last'}, contentEnd? outer inner' last' (place + line.length + 1) rest
        = some stop → last' = some stop ∨ place < stop ∧
          stop ≤ place + (Text.joinLines (line :: rest)).length := by
      intro inner' last' hcontent
      rcases ih hcontent with hlast | hstop
      · exact Or.inl hlast
      · by_cases hnil : rest = []
        · subst hnil; exact Or.inl (by simpa [contentEnd?] using hcontent)
        · have := hlen.2 hnil
          exact Or.inr (by omega)
    unfold contentEnd? at h
    simp only at h
    split at h
    · exact hrest h
    · rename_i hblank
      have hpos : 0 < line.length := by
        rcases Nat.eq_zero_or_pos line.length with h0 | h0
        · rw [List.eq_nil_of_length_eq_zero h0] at hblank
          exact absurd rfl hblank
        · exact h0
      have hline : some (place + line.length) = some stop → place < stop ∧
          stop ≤ place + (Text.joinLines (line :: rest)).length := by
        intro heq
        have := Option.some.inj heq
        omega
      split at h
      · split at h
        · exact Or.inl h
        · rcases hrest h with h | h
          · exact Or.inr (hline h)
          · exact Or.inr h
      · split at h
        · exact Or.inl h
        · rcases hrest h with h | h
          · exact Or.inr (hline h)
          · exact Or.inr h

/-- **A body told by indentation lies in the text.** -/
theorem indented_within (start : Nat) (h : place ≤ t.length) :
    (indented t start place).Within place t := by
  have heol := Text.le_lineEnd h
  have heol' := Text.lineEnd_le t place
  unfold indented
  simp only
  split
  · have hrest := Text.length_trimLeft_le (Text.slice t place (Text.lineEnd t place))
    have hlen := Text.length_slice (i := place) heol'
    exact ⟨Nat.le_add_right _ _, by simp only; omega, Nat.le_refl _, heol'⟩
  · split
    · exact ⟨Nat.le_refl _, Nat.le_refl _, heol, heol'⟩
    · rename_i stop hstop
      rcases contentEnd?_spec hstop with hnone | hbound
      · simp at hnone
      · rw [Text.joinLines_lines, List.length_drop] at hbound
        exact ⟨by simp only; omega, by simp only; omega, Nat.le_refl _, by simp only; omega⟩

end Block

/-- **A body lies in the text, behind its signature**, however the language tells it. -/
theorem Language.block_within (language : Language) {t : Text} (start : Nat) {place : Nat}
    (h : place ≤ t.length) : (language.block t start place).Within place t := by
  unfold Language.block
  split
  · exact Block.braced_within start h
  · exact Block.indented_within start h

end CodeSurvey
