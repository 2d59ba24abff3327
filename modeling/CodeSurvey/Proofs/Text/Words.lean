import CodeSurvey.Proofs.Text.Trim

/-!
# Words in a text

A word stands for itself where no word character is in front of it, and none behind. Then it is one of the pieces that
are left when the text is cut at all other characters.

* `EndsApart`, `BeginsApart`: texts that a word can follow, and texts that can follow a word.
* `endsApart_append`, `endsApart_append_cons`: what matters of the text in front of a word.
* `mem_splitWhen_word`: a word that stands for itself is a piece of the text.
* `headKeywords`, `loopKeywords`, `FreeOfLoops`: the words of loops, and texts where none of them stands for itself.
-/

namespace CodeSurvey.Text

variable {a u v w z : Text} {c : Char}

/-- A text that a word can follow: it is empty, or ends in no word character. -/
def EndsApart (u : Text) : Prop :=
  ∀ ch ∈ u.getLast?, isWord ch = false

/-- A text that can follow a word. -/
def BeginsApart (x : Text) : Prop :=
  ∀ ch ∈ x.head?, isWord ch = false

instance (u : Text) : Decidable (EndsApart u) :=
  decidable_of_iff (u.getLast?.all (!isWord ·) = true) (by simp [EndsApart, Option.all_eq_true])

instance (x : Text) : Decidable (BeginsApart x) :=
  decidable_of_iff (x.head?.all (!isWord ·) = true) (by simp [BeginsApart, Option.all_eq_true])

/-- Behind a character that is no word character, what is in front of it does not matter. -/
theorem endsApart_append_cons (hc : isWord c = false) : EndsApart (a ++ c :: u) ↔ EndsApart u := by
  rw [EndsApart, EndsApart, List.getLast?_append_cons]
  cases u with
  | nil => simp [hc]
  | cons d u => rw [List.getLast?_cons_cons]

theorem endsApart_of_append (h : EndsApart (a ++ u)) : EndsApart u := by
  intro ch hch
  refine h ch ?_
  rw [List.getLast?_append, Option.mem_def.1 hch]
  rfl

theorem endsApart_append (hu : EndsApart u) : EndsApart (u ++ v) ↔ EndsApart v := by
  constructor
  · exact endsApart_of_append
  · intro hv ch hch
    rw [List.getLast?_append] at hch
    cases hlast : v.getLast? with
    | none =>
      rw [hlast] at hch
      exact hu ch hch
    | some d =>
      rw [hlast] at hch
      exact hv ch (hlast ▸ hch)

theorem beginsApart_blanks {b : Text} {ch : Char} (hb : ∀ d ∈ b, isBlank d = true) (hch : isWord ch = false) :
    BeginsApart (b ++ ch :: z) := by
  intro d hd
  cases b with
  | nil =>
    rw [← Option.some.inj hd]
    exact hch
  | cons e b =>
    rw [← Option.some.inj hd]
    exact isWord_of_isBlank (hb e List.mem_cons_self)

/-- **A word that stands for itself is a piece of the text.** -/
theorem mem_splitWhen_word (hu : EndsApart u) (hw : ∀ ch ∈ w, isWord ch = true) (hz : BeginsApart z) :
    w ∈ splitWhen (!isWord ·) (u ++ (w ++ z)) := by
  have hword : splitWhen (!isWord ·) w = [w] :=
    splitWhen_of_none fun ch hch => by simp [hw ch hch]
  -- what is behind the word, and then what is in front of it, ends at a character that is cut out
  have hbehind : w ∈ splitWhen (!isWord ·) (w ++ z) := by
    cases z with
    | nil => simp [hword]
    | cons ch z =>
      have hch : isWord ch = false := hz ch rfl
      rw [splitWhen_append (by simp [hch]), hword]
      exact List.mem_cons_self
  rcases List.eq_nil_or_concat u with rfl | ⟨u, ch, rfl⟩
  · exact hbehind
  · have hch : isWord ch = false := hu ch (by simp)
    rw [List.concat_eq_append, List.append_assoc, List.singleton_append, splitWhen_append (by simp [hch])]
    exact List.mem_append_right _ hbehind

/-! ## The words of loops -/

/-- The words of loops with a head, where braces tell blocks. -/
def headKeywords : List String :=
  ["for", "foreach", "while"]

/-- The words that open a loop, the one of do loops included. -/
def loopKeywords : List String :=
  headKeywords ++ ["do"]

theorem mem_loopKeywords_of_head {w : String} (hw : w ∈ headKeywords) : w ∈ loopKeywords :=
  List.mem_append_left ["do"] hw

theorem isWord_of_mem_loopKeywords {w : String} (hw : w ∈ loopKeywords) :
    w.toList ≠ [] ∧ ∀ ch ∈ w.toList, isWord ch = true := by
  have hall : ∀ w ∈ loopKeywords, w.toList ≠ [] ∧ w.toList.all isWord = true := by decide
  exact ⟨(hall w hw).1, List.all_eq_true.1 (hall w hw).2⟩

/-- **A text free of loop words**, as words of their own. -/
def FreeOfLoops (x : Text) : Prop :=
  ∀ w ∈ loopKeywords, w.toList ∉ splitWhen (!isWord ·) x

instance (x : Text) : Decidable (FreeOfLoops x) :=
  inferInstanceAs (Decidable (∀ w ∈ loopKeywords, _))

/-- No loop word stands in a text that is free of them. -/
theorem FreeOfLoops.not_word (hfree : FreeOfLoops (u ++ v)) (hu : EndsApart u) {w : String} (hw : w ∈ loopKeywords)
    (hz : BeginsApart z) : v ≠ w.toList ++ z := by
  rintro rfl
  exact hfree w hw (mem_splitWhen_word hu (isWord_of_mem_loopKeywords hw).2 hz)

end CodeSurvey.Text
