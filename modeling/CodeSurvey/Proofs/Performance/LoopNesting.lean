import Mathlib.Data.List.Chain
import CodeSurvey.Proofs.Performance.PartTime
import CodeSurvey.Proofs.Text.Words

/-!
# Loops in loops, as the estimate and the rules see them

Both the estimate of time and the rules on nested loops look for loop words and braces. The estimate wants
one loop directly in another: behind the opening brace of the outer one there is no brace before the inner
word. The rules let other blocks be opened in between.

* `LoopWordAt`, `DirectlyIn`: a loop word, and the place of one directly in the block of another.
* `NestedLoops`: loop words, each directly in the one before.
* `le_rank_bracedTime_iff`: the growth of time is told exactly by them.
-/

namespace CodeSurvey

open Pattern
open Text (loopKeywords isWord_of_mem_loopKeywords)

variable {t : Text} {i j e f p limit : Nat} {c d : Cursor}

/-! ## Loop words -/

/-- **A loop word stands between two places**, and it is no part of a longer word. -/
structure LoopWordAt (t : Text) (i e : Nat) : Prop where
  word : ∃ w ∈ loopKeywords, e = i + w.toList.length ∧ Text.slice t i e = w.toList
  before : ∀ k c, i = k + 1 → t[k]? = some c → Text.isWord c = false
  behind : ∀ c, t[e]? = some c → Text.isWord c = false

theorem LoopWordAt.lt (h : LoopWordAt t i e) : i < e := by
  obtain ⟨w, hw, he, -⟩ := h.word
  have hpos := List.length_pos_iff.2 (isWord_of_mem_loopKeywords hw).1
  omega

theorem LoopWordAt.le_length (h : LoopWordAt t i e) : e ≤ t.length := by
  have hlt := h.lt
  obtain ⟨w, -, he, hslice⟩ := h.word
  have hlen := congrArg List.length hslice
  rw [Text.slice, List.length_take, List.length_drop] at hlen
  omega

/-- The characters of a loop word are word characters. -/
theorem LoopWordAt.isWord {ch : Char} (h : LoopWordAt t i e) (hch : ch ∈ Text.slice t i e) :
    Text.isWord ch = true := by
  obtain ⟨w, hw, -, hslice⟩ := h.word
  rw [hslice] at hch
  exact (isWord_of_mem_loopKeywords hw).2 ch hch

theorem atEdge_ofPlace_iff_before (hi : i ≤ t.length)
    (hnext : (Cursor.ofPlace t i).nextIs Text.isWord = true) : (Cursor.ofPlace t i).atEdge = true ↔
      ∀ k c, i = k + 1 → t[k]? = some c → Text.isWord c = false := by
  rw [Cursor.atEdge, hnext, bne_iff_ne, ne_eq, Bool.not_eq_true]
  cases i with
  | zero => exact ⟨fun _ k c hk => by omega, fun _ => rfl⟩
  | succ k =>
    rw [Cursor.lastIs_ofPlace _ (by omega), List.getElem?_eq_getElem (by omega), Option.any_some]
    constructor
    · rintro h k' c hk hc
      obtain rfl : k = k' := by omega
      rw [List.getElem?_eq_getElem (by omega), Option.some.injEq] at hc
      rwa [← hc]
    · intro h
      exact h k _ rfl (List.getElem?_eq_getElem (by omega))

theorem atEdge_ofPlace_iff_behind (hlast : (Cursor.ofPlace t e).lastIs Text.isWord = true) :
    (Cursor.ofPlace t e).atEdge = true ↔ ∀ c, t[e]? = some c → Text.isWord c = false := by
  rw [Cursor.atEdge, hlast, bne_iff_ne, ne_comm, ne_eq, Bool.not_eq_true,
    Cursor.nextIs_ofPlace]
  cases t[e]? with
  | none => simp
  | some c => simp

/-- **The pattern of loop words stops behind loop words.** -/
theorem mem_stops_loopWord (hi : i ≤ t.length) :
    d ∈ Estimate.bracedLoopWord.stops limit (Cursor.ofPlace t i) ↔
      ∃ e, LoopWordAt t i e ∧ d = Cursor.ofPlace t e := by
  -- at both ends of the word there is a word character on its side
  have hends : ∀ {w : String}, w ∈ loopKeywords →
      Text.slice t i (i + w.toList.length) = w.toList →
      (Cursor.ofPlace t i).nextIs Text.isWord = true ∧
      (Cursor.ofPlace t (i + w.toList.length)).lastIs Text.isWord = true := by
    intro w hw hslice
    obtain ⟨hne, hall⟩ := isWord_of_mem_loopKeywords hw
    have hpos := List.length_pos_iff.2 hne
    have hchar : ∀ k, k < w.toList.length → t[i + k]?.any Text.isWord = true := by
      intro k hk
      rw [← Text.getElem?_slice (show i + k < i + w.toList.length by omega), hslice,
        List.getElem?_eq_getElem hk, Option.any_some]
      exact hall _ (List.getElem_mem hk)
    have hlen := congrArg List.length hslice
    rw [Text.slice, List.length_take, List.length_drop] at hlen
    refine ⟨by rw [Cursor.nextIs_ofPlace]; exact hchar 0 hpos, ?_⟩
    rw [show i + w.toList.length = i + (w.toList.length - 1) + 1 by omega,
      Cursor.lastIs_ofPlace _ (by omega)]
    exact hchar _ (by omega)
  rw [Estimate.bracedLoopWord, keywords, mem_stops_seq rfl]
  simp only [mem_stops_seq (show (words ["for", "foreach", "while", "do"]).recalls = false from rfl),
    mem_stops_words (List.cons_ne_nil _ _), mem_stops_edge]
  constructor
  · rintro ⟨u, ⟨v, ⟨hedge, rfl⟩, w, hw, hpre, rfl⟩, hstop, rfl⟩
    rw [Cursor.ofPlace_after, prefix_drop_iff] at hpre
    rw [Cursor.ofPlace_advance] at hstop ⊢
    obtain ⟨hnext, hlast⟩ := hends hw hpre
    exact ⟨_, ⟨⟨w, hw, rfl, hpre⟩, (atEdge_ofPlace_iff_before hi hnext).1 hedge,
      (atEdge_ofPlace_iff_behind hlast).1 hstop⟩, rfl⟩
  · rintro ⟨e, h, rfl⟩
    obtain ⟨w, hw, rfl, hslice⟩ := h.word
    obtain ⟨hnext, hlast⟩ := hends hw hslice
    refine ⟨_, ⟨_, ⟨(atEdge_ofPlace_iff_before hi hnext).2 h.before, rfl⟩, w, hw, ?_, rfl⟩, ?_, ?_⟩
    · rw [Cursor.ofPlace_after, prefix_drop_iff]
      exact hslice
    · rw [Cursor.ofPlace_advance]
      exact (atEdge_ofPlace_iff_behind hlast).2 h.behind
    · rw [Cursor.ofPlace_advance]

/-! ## One loop directly in another -/

/-- **A place is directly in the block of a loop** whose word ends at `e`: behind the first opening brace
there is no brace in front of the place. -/
def DirectlyIn (t : Text) (e j : Nat) : Prop :=
  ∃ p, e ≤ p ∧ p < j ∧ t[p]? = some '{' ∧ (∀ ch ∈ Text.slice t e p, ch ≠ '{') ∧
    ∀ ch ∈ Text.slice t (p + 1) j, ch ≠ '{' ∧ ch ≠ '}'

theorem slice_eq_singleton_iff {ch : Char} : Text.slice t p (p + 1) = [ch] ↔ t[p]? = some ch := by
  rw [Text.slice, Nat.add_sub_cancel_left, ← List.head?_drop]
  cases t.drop p <;> simp

/-- The pattern of a loop and its block stops directly in it. -/
theorem mem_stops_loopHead (hi : i ≤ t.length) :
    d ∈ Estimate.bracedLoopHead.stops limit (Cursor.ofPlace t i) ↔
      ∃ e j, LoopWordAt t i e ∧ DirectlyIn t e j ∧ j ≤ t.length ∧ d = Cursor.ofPlace t j := by
  have hopen : ∀ {x : Text}, (∀ ch ∈ x, (!"\x7b".toList.contains ch) = true) ↔ ∀ ch ∈ x, ch ≠ '{' := by
    simp
  have hbraces : ∀ {x : Text}, (∀ ch ∈ x, (!"\x7b\x7d".toList.contains ch) = true)
      ↔ ∀ ch ∈ x, ch ≠ '{' ∧ ch ≠ '}' := by
    simp
  rw [Estimate.bracedLoopHead, mem_stops_seq rfl]
  constructor
  · rintro ⟨u, hu, hd⟩
    obtain ⟨v, hv, hu⟩ := (mem_stops_seq rfl).1 hu
    obtain ⟨w, hw, hv⟩ := (mem_stops_seq rfl).1 hv
    obtain ⟨e, hword, rfl⟩ := (mem_stops_loopWord hi).1 hw
    obtain ⟨p, hep, -, hgap, rfl⟩ := (mem_stops_span_ofPlace hword.le_length).1 hv
    obtain ⟨hbrace, rfl⟩ := mem_stops_text_ofPlace.1 hu
    have hp := slice_eq_singleton_iff.1 hbrace
    have hlt := (List.getElem?_eq_some_iff.1 hp).1
    obtain ⟨j, hpj, hj, hinside, rfl⟩ := (mem_stops_span_ofPlace hlt).1 hd
    exact ⟨e, j, hword, ⟨p, hep, hpj, hp, hopen.1 hgap, hbraces.1 hinside⟩, hj, rfl⟩
  · rintro ⟨e, j, hword, ⟨p, hep, hpj, hp, hgap, hinside⟩, hj, rfl⟩
    have hlt := (List.getElem?_eq_some_iff.1 hp).1
    refine ⟨Cursor.ofPlace t (p + 1), (mem_stops_seq rfl).2 ⟨Cursor.ofPlace t p,
      (mem_stops_seq rfl).2 ⟨Cursor.ofPlace t e, ?_, ?_⟩, ?_⟩, ?_⟩
    · exact (mem_stops_loopWord hi).2 ⟨e, hword, rfl⟩
    · exact (mem_stops_span_ofPlace hword.le_length).2
        ⟨p, hep, Nat.le_of_lt hlt, hopen.2 hgap, rfl⟩
    · exact mem_stops_text_ofPlace.2 ⟨slice_eq_singleton_iff.2 hp, rfl⟩
    · exact (mem_stops_span_ofPlace hlt).2 ⟨j, hpj, hj, hbraces.2 hinside, rfl⟩

/-- **Loop words, each directly in the block of the one before.** -/
structure NestedLoops (t : Text) (loops : List (Nat × Nat)) : Prop where
  words : ∀ w ∈ loops, LoopWordAt t w.1 w.2
  direct : loops.IsChain fun a b => DirectlyIn t a.2 b.1

theorem nestedLoops_singleton : NestedLoops t [(i, e)] ↔ LoopWordAt t i e :=
  ⟨fun h => h.words _ List.mem_cons_self, fun h => ⟨by simpa using h, List.isChain_singleton _⟩⟩

theorem nestedLoops_cons_cons {l : List (Nat × Nat)} : NestedLoops t ((i, e) :: (j, f) :: l) ↔
    LoopWordAt t i e ∧ DirectlyIn t e j ∧ NestedLoops t ((j, f) :: l) := by
  constructor
  · rintro ⟨hwords, hdirect⟩
    rw [List.isChain_cons_cons] at hdirect
    exact ⟨hwords _ List.mem_cons_self, hdirect.1,
      fun w hw => hwords w (List.mem_cons_of_mem _ hw), hdirect.2⟩
  · rintro ⟨hword, hin, hrest⟩
    refine ⟨fun w hw => ?_, List.isChain_cons_cons.2 ⟨hin, hrest.direct⟩⟩
    rcases List.mem_cons.1 hw with rfl | hw
    · exact hword
    · exact hrest.words w hw

theorem NestedLoops.tail {l : List (Nat × Nat)} (h : NestedLoops t l) : NestedLoops t l.tail :=
  ⟨fun w hw => h.words w (List.mem_of_mem_tail hw), h.direct.tail⟩

/-! ## The estimate -/

/-- The pattern of a loop word inside so many others. -/
def nestedWord : Nat → Pattern
  | 0 => Estimate.bracedLoopWord
  | n + 1 => Estimate.bracedLoopHead ++ nestedWord n

theorem recalls_nestedWord (n : Nat) : (nestedWord n).recalls = false := by
  induction n with
  | zero => rfl
  | succ n ih => exact ih

/-- The pattern can be read at a loop word that others are nested in. -/
theorem exists_stop_nestedWord (n : Nat) : ∀ {i : Nat}, i ≤ t.length →
    ((∃ d, d ∈ (nestedWord n).stops limit (Cursor.ofPlace t i)) ↔
      ∃ e l, l.length = n ∧ NestedLoops t ((i, e) :: l)) := by
  induction n with
  | zero =>
    intro i hi
    simp only [nestedWord, mem_stops_loopWord hi, List.length_eq_zero_iff]
    constructor
    · rintro ⟨-, e, hword, -⟩
      exact ⟨e, [], rfl, nestedLoops_singleton.2 hword⟩
    · rintro ⟨e, -, rfl, h⟩
      exact ⟨_, e, nestedLoops_singleton.1 h, rfl⟩
  | succ n ih =>
    intro i hi
    simp only [nestedWord, mem_stops_seq (recalls_nestedWord n), mem_stops_loopHead hi]
    constructor
    · rintro ⟨d, -, ⟨e, j, hword, hin, hj, rfl⟩, hd⟩
      obtain ⟨f, l, hl, hrest⟩ := (ih hj).1 ⟨d, hd⟩
      exact ⟨e, (j, f) :: l, by simp [hl], nestedLoops_cons_cons.2 ⟨hword, hin, hrest⟩⟩
    · rintro ⟨e, l, hl, h⟩
      cases l with
      | nil => cases hl
      | cons w l =>
        obtain ⟨hword, hin, hrest⟩ := nestedLoops_cons_cons.1 h
        have hnext := hrest.words _ List.mem_cons_self
        have hlt := hnext.lt
        have hle := hnext.le_length
        have hj : w.1 ≤ t.length := by omega
        obtain ⟨d, hd⟩ := (ih hj).2 ⟨w.2, l, by simpa using hl, hrest⟩
        exact ⟨d, _, ⟨e, w.1, hword, hin, hj, rfl⟩, hd⟩

theorem foundIn_nestedWord_iff (n : Nat) : (nestedWord n).foundIn t = true ↔
    ∃ l, l.length = n + 1 ∧ NestedLoops t l := by
  rw [foundIn_iff_stops]
  constructor
  · rintro ⟨k, hk, hstop⟩
    obtain ⟨e, l, hl, h⟩ := (exists_stop_nestedWord n hk).1 hstop
    exact ⟨_, by simp [hl], h⟩
  · rintro ⟨l, hl, h⟩
    cases l with
    | nil => cases hl
    | cons w l =>
      have hword := h.words _ List.mem_cons_self
      have hlt := hword.lt
      have hle := hword.le_length
      have hk : w.1 ≤ t.length := by omega
      exact ⟨w.1, hk, (exists_stop_nestedWord n hk).2 ⟨w.2, l, by simpa using hl, h⟩⟩

theorem foundIn_bracedTriple : Estimate.bracedTriple.foundIn t = (nestedWord 2).foundIn t := by
  rw [Bool.eq_iff_iff, foundIn_iff, foundIn_iff]
  simp only [Estimate.bracedTriple, outcomes_append_assoc]
  rfl

/-- **The growth of time is how deep loops are nested**, up to three: growth is at least of a rank exactly
if there are that many loop words, each directly in the block of the one before. -/
theorem le_rank_bracedTime_iff {n : Nat} (hn : n ≤ 3) :
    n ≤ (Estimate.bracedTime t).rank ↔ ∃ l, l.length = n ∧ NestedLoops t l := by
  have hfound := fun n => foundIn_nestedWord_iff (t := t) n
  have hless : ∀ {n : Nat}, (∃ l, l.length = n + 1 ∧ NestedLoops t l) →
      ∃ l, l.length = n ∧ NestedLoops t l := by
    rintro n ⟨l, hl, h⟩
    exact ⟨l.tail, by rw [List.length_tail, hl, Nat.add_sub_cancel], h.tail⟩
  have hcubic : 3 ≤ (Estimate.bracedTime t).rank ↔ ∃ l, l.length = 3 ∧ NestedLoops t l := by
    rw [← hfound 2, ← foundIn_bracedTriple, Estimate.bracedTime_eq]
    show Growth.cubic ≤ _ ↔ _
    rw [Growth.cubic_le_iff, Growth.ofNesting_eq_cubic_iff]
  have hquadratic : 2 ≤ (Estimate.bracedTime t).rank ↔ ∃ l, l.length = 2 ∧ NestedLoops t l := by
    show Growth.quadratic ≤ Growth.ofNesting _ (nestedWord 1) _ t ↔ _
    rw [Growth.quadratic_le_ofNesting_iff, foundIn_bracedTriple, hfound 2, hfound 1]
    exact ⟨fun h => h.elim hless id, Or.inr⟩
  have hlinear : 1 ≤ (Estimate.bracedTime t).rank ↔ ∃ l, l.length = 1 ∧ NestedLoops t l := by
    show Growth.linear ≤ Growth.ofNesting _ (nestedWord 1) (nestedWord 0) t ↔ _
    rw [Growth.linear_le_ofNesting_iff, foundIn_bracedTriple, hfound 2, hfound 1, hfound 0]
    exact ⟨fun h => h.elim (fun h => hless (hless h)) fun h => h.elim hless id,
      fun h => Or.inr (Or.inr h)⟩
  obtain rfl | rfl | rfl | rfl : n = 0 ∨ n = 1 ∨ n = 2 ∨ n = 3 := by omega
  · exact ⟨fun _ => ⟨[], rfl, by simp, List.isChain_nil⟩, fun _ => Nat.zero_le _⟩
  · exact hlinear
  · exact hquadratic
  · exact hcubic

end CodeSurvey
