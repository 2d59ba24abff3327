import CodeSurvey.Performance.LoopBody
import CodeSurvey.Proofs.Pattern.WholeWords
import CodeSurvey.Proofs.Text.Words

/-!
# Loop bodies between braces

The bodies of loops are found in one pass over the loop words: the brace behind the last word is kept as long as it lies
ahead, a brace that was used is passed over, and the pass ends when no brace is left. It finds what a plain search finds
that looks for the first brace behind each word anew.

* `loopWordEnds`, `firstPlace?`, `plainBraced`: the plain search, place by place.
* `map_last_findAll`: the words that the pattern finds are all the loop words of the text.
* `Kept`: what is kept is the brace that a new search would find. `kept_lookup`, `kept_next`: one word.
* `bracedFrom_eq`, `braced_eq_map`: all words.
* `braced_eq_plain`: the pass finds what the plain search finds, and the bodies lie apart and hold no brace.
-/

namespace CodeSurvey.LoopBody

open Pattern

variable {t : Text} {i j e b : Nat} {brace : Option Nat}

/-! ## The plain search -/

/-- The words that open a loop. -/
def loopWordTexts : List Text :=
  Text.headKeywords.map String.toList

/-- Whether a text stands at a place as a whole word: no word character touches it. -/
def standsWhole (t x : Text) (i : Nat) : Bool :=
  Text.slice t i (i + x.length) == x && (t.take i).getLast?.all (!Text.isWord ·)
    && t[i + x.length]?.all (!Text.isWord ·)

/-- The places behind the loop words of a text, from left to right. -/
def loopWordEnds (t : Text) : List Nat :=
  (List.range (t.length + 1)).filterMap fun i => (loopWordTexts.find? (standsWhole t · i)).map (i + ·.length)

/-- The first place at or behind another whose character is accepted. -/
def firstPlace? (accepts : Char → Bool) (t : Text) (start : Nat) : Option Nat :=
  (List.range t.length).find? fun i => decide (start ≤ i) && t[i]?.any accepts

/-- The bodies of loops, searched plainly: for each loop word the first opening brace behind it, each brace once, and
what stands between it and the next brace of either kind, or the end of the text. -/
def plainBraced (t : Text) : List Span :=
  ((loopWordEnds t).filterMap (firstPlace? (· == '{') t)).eraseDups.map fun b =>
    (b + 1, (firstPlace? (fun c => c == '{' || c == '}') t (b + 1)).getD t.length)

theorem firstPlace?_eq (accepts : Char → Bool) (t : Text) (start : Nat) :
    firstPlace? accepts t start = Text.indexFrom? accepts t start := by
  apply Option.ext
  intro j
  rw [firstPlace?, List.find?_range_eq_some, Text.indexFrom?_eq_some_iff]
  simp only [Bool.and_eq_true, decide_eq_true_eq, List.mem_range, Option.any_eq_true, Bool.not_eq_true',
    Bool.and_eq_false_iff, decide_eq_false_iff_not]
  constructor
  · rintro ⟨⟨hle, hacc⟩, -, hbefore⟩
    refine ⟨hle, hacc, ?_⟩
    intro c hc
    obtain ⟨k, hstart, hk, hkc⟩ := Text.mem_slice_iff.1 hc
    rcases hbefore k hk with hlt | hnone
    · exact absurd hstart hlt
    · rwa [hkc, Option.any_some] at hnone
  · rintro ⟨hle, ⟨c, hc, hacc⟩, hbefore⟩
    refine ⟨⟨hle, c, hc, hacc⟩, (List.getElem?_eq_some_iff.1 hc).1, ?_⟩
    intro k hk
    by_cases hstart : start ≤ k
    · right
      cases hkc : t[k]? with
      | none => rfl
      | some d => exact hbefore d (Text.mem_slice_iff.2 ⟨k, hstart, hk, hkc⟩)
    · exact Or.inl hstart

/-! ## The words -/

theorem loopWords_eq : loopWords = keywords Text.headKeywords := rfl

theorem wholeWords_loopWords : WholeWords Text.headKeywords := by
  decide

theorem standsWhole_iff {x : Text} : standsWhole t x i = true ↔ Stands true x (Cursor.ofPlace t i) := by
  have hbefore : (Cursor.ofPlace t i).before.head? = (t.take i).getLast? := by
    rw [Cursor.ofPlace_before, List.head?_reverse]
  have hbehind : ((Cursor.ofPlace t i).after.drop x.length).head? = t[i + x.length]? := by
    rw [Cursor.ofPlace_after, List.drop_drop, List.head?_drop]
  have hcarried : x <+: (Cursor.ofPlace t i).after ↔ Text.slice t i (i + x.length) = x := by
    rw [Cursor.ofPlace_after, prefix_drop_iff]
  simp only [standsWhole, Bool.and_eq_true, beq_iff_eq, Option.all_eq_true, Bool.not_eq_true']
  constructor
  · rintro ⟨⟨hslice, hfront⟩, hback⟩
    exact ⟨hcarried.2 hslice, fun _ => hbefore ▸ hfront, fun _ => hbehind ▸ hback⟩
  · intro h
    exact ⟨⟨hcarried.1 h.carried, hbefore ▸ h.apartBefore rfl⟩, hbehind ▸ h.apartBehind rfl⟩

/-- The word that is read at a place is the one that stands there. -/
theorem last_readAt? (hi : i ≤ t.length) : ((loopWords.readAt? t.length (Cursor.ofPlace t i)).map Match.last) =
    (loopWordTexts.find? (standsWhole t · i)).map (i + ·.length) := by
  have hreads : ∀ {m}, loopWords.readAt? t.length (Cursor.ofPlace t i) = some m ↔ ∃ x ∈ loopWordTexts,
      Stands true x (Cursor.ofPlace t i) ∧ m = ⟨Cursor.ofPlace t i, (Cursor.ofPlace t i).advance x.length, []⟩ :=
    readAt?_reads wholeWords_loopWords.reads wholeWords_loopWords.unambiguous
  cases hfind : loopWordTexts.find? (standsWhole t · i) with
  | none =>
    have hnone : loopWords.readAt? t.length (Cursor.ofPlace t i) = none := by
      rw [Option.eq_none_iff_forall_ne_some]
      intro m hm
      obtain ⟨x, hx, hstands, -⟩ := hreads.1 hm
      exact List.find?_eq_none.1 hfind x hx (standsWhole_iff.2 hstands)
    rw [hnone]
    rfl
  | some x =>
    have hwhole := List.find?_some hfind
    have hstands := standsWhole_iff.1 hwhole
    have hread := hreads.2 ⟨x, List.mem_of_find?_eq_some hfind, hstands, rfl⟩
    have hplace : ((Cursor.ofPlace t i).advance x.length).place = i + x.length := by
      rw [Cursor.advance_place _ hstands.carried.length_le, Cursor.ofPlace_place hi]
    exact (congrArg (Option.map Match.last) hread).trans (congrArg some hplace)

/-- **The pattern finds all loop words, from left to right.** -/
theorem map_last_findAll (t : Text) : (loopWords.findAll t).map Match.last = loopWordEnds t := by
  have hall := findAll_eq_stretch (wholeWords_loopWords.apart t.length) wholeWords_loopWords.minWidth_pos
  rw [loopWords_eq, hall, stretch, List.map_filterMap]
  apply List.filterMap_congr
  intro i hi
  rw [Cursor.ofPlace_advance, Nat.zero_add]
  exact last_readAt? (Nat.le_of_lt_succ (List.mem_range.1 hi))

theorem pairwise_loopWordEnds (t : Text) : (loopWordEnds t).Pairwise (· ≤ ·) := by
  rw [← map_last_findAll, List.pairwise_map]
  refine (findAll_pairwise loopWords t).imp_of_mem ?_
  intro m n _ hn hle
  have hwidth := (findAll_fits hn).width_le
  omega

/-! ## The braces -/

/-- **What is kept is right as long as it lies ahead**: from the words at or behind `e` on, a new search finds it. -/
def Kept (t : Text) (brace : Option Nat) (e : Nat) : Prop :=
  ∀ b ∈ brace, ∀ i, e ≤ i → i ≤ b → Text.indexFrom? (· == '{') t i = some b

/-- **One word**: the brace that is kept or searched is the first one behind the word. -/
theorem kept_lookup (h : Kept t brace e) (hle : e ≤ i) :
    ((brace.filter (i ≤ ·)).orElse fun _ => Text.indexFrom? (· == '{') t i) = Text.indexFrom? (· == '{') t i := by
  cases brace with
  | none => rfl
  | some b =>
    by_cases hib : i ≤ b
    · rw [Option.filter_some, if_pos (decide_eq_true hib), h b rfl i hle hib]
      rfl
    · rw [Option.filter_some, if_neg (by simpa using hib)]
      rfl

theorem kept_next (h : Text.indexFrom? (· == '{') t e = some b) : Kept t (some b) e := by
  rintro _ ⟨⟩ i hle hi
  exact Text.indexFrom?_of_le h hle hi

/-- What stands between an opening brace and the next brace. -/
def bodyBehind (t : Text) (b : Nat) : Span :=
  (b + 1, nextBrace t (b + 1))

/-- **All words**: the pass finds the first brace behind each word, each once, but for those that have been used. -/
theorem bracedFrom_eq (t : Text) : ∀ (ms : List Match) (seen : List Nat) {brace : Option Nat} {e : Nat},
    Kept t brace e → (∀ m ∈ ms, e ≤ m.last) → (ms.map Match.last).Pairwise (· ≤ ·) →
    bracedFrom t brace seen ms = (((ms.map Match.last).filterMap
      (Text.indexFrom? (· == '{') t)).filter (!seen.contains ·)).eraseDups.map (bodyBehind t) := by
  intro ms
  induction ms with
  | nil => intros; rfl
  | cons m rest ih =>
    intro seen brace e hkept hahead hsorted
    rw [List.map_cons, List.pairwise_cons] at hsorted
    have hbehind : ∀ n ∈ rest, m.last ≤ n.last := fun n hn => hsorted.1 _ (List.mem_map_of_mem hn)
    rw [bracedFrom, kept_lookup hkept (hahead m List.mem_cons_self), List.map_cons]
    cases hbrace : Text.indexFrom? (· == '{') t m.last with
    | none =>
      -- no later word has a brace behind it either
      have hnone : (rest.map Match.last).filterMap (Text.indexFrom? (· == '{') t) = [] := by
        rw [List.filterMap_eq_nil_iff]
        intro i hi
        exact Text.indexFrom?_none_of_le hbrace (hsorted.1 i hi)
      rw [List.filterMap_cons_none hbrace, hnone]
      rfl
    | some b =>
      have hnext : ∀ seen', bracedFrom t (some b) seen' rest = _ := fun seen' =>
        ih seen' (kept_next hbrace) hbehind hsorted.2
      rw [List.filterMap_cons_some hbrace]
      dsimp only
      by_cases hseen : seen.contains b = true
      · -- the brace was used for an earlier word
        rw [if_pos hseen, hnext, List.filter_cons_of_neg (by rw [hseen]; decide)]
      · -- it is used now, and passed over from here on
        have hfilter : ∀ l : List Nat, (l.filter (!seen.contains ·)).filter (fun i => !i == b) =
            l.filter (!(b :: seen).contains ·) := by
          intro l
          rw [List.filter_filter]
          apply List.filter_congr
          intro i _
          rw [List.contains_cons, Bool.not_or]
        rw [if_neg hseen, hnext, List.filter_cons_of_pos (by simpa using hseen), List.eraseDups_cons, hfilter]
        rfl

/-- The opening braces behind the loop words of a text, each once. -/
def loopBraces (t : Text) : List Nat :=
  ((loopWordEnds t).filterMap (Text.indexFrom? (· == '{') t)).eraseDups

theorem braced_eq_map (t : Text) : braced t = (loopBraces t).map (bodyBehind t) := by
  have hsorted : ((loopWords.findAll t).map Match.last).Pairwise (· ≤ ·) := by
    rw [map_last_findAll]
    exact pairwise_loopWordEnds t
  have hfresh : Kept t none 0 := fun _ hb => by cases hb
  rw [braced, bracedFrom_eq t _ [] hfresh (fun _ _ => Nat.zero_le _) hsorted, map_last_findAll]
  have hunused : ∀ l : List Nat, l.filter (!([] : List Nat).contains ·) = l :=
    fun l => List.filter_eq_self.2 fun _ _ => rfl
  rw [hunused, loopBraces]

/-! ## The bodies -/

/-- What is in order and has each element once is in strict order. -/
theorem pairwise_eraseDups {l : List Nat} (h : l.Pairwise (· ≤ ·)) : l.eraseDups.Pairwise (· < ·) := by
  -- on the length, since what follows an element is filtered before it is looked at
  induction hlen : l.length using Nat.strongRecOn generalizing l with
  | ind n ih =>
    subst hlen
    cases l with
    | nil => exact List.Pairwise.nil
    | cons a rest =>
      rw [List.pairwise_cons] at h
      rw [List.eraseDups_cons, List.pairwise_cons]
      constructor
      · intro i hi
        rw [List.mem_eraseDups, List.mem_filter] at hi
        have hne : i ≠ a := by simpa using hi.2
        exact Nat.lt_of_le_of_ne (h.1 i hi.1) hne.symm
      · refine ih _ ?_ (h.2.filter _) rfl
        exact Nat.lt_succ_of_le (List.length_filter_le _ _)

theorem pairwise_loopBraces (t : Text) : (loopBraces t).Pairwise (· < ·) := by
  apply pairwise_eraseDups
  rw [List.pairwise_filterMap]
  exact (pairwise_loopWordEnds t).imp fun hle b hb j hj => Text.indexFrom?_mono hb hj hle

theorem nextBrace_spec (hb : b ≤ t.length) : b ≤ nextBrace t b ∧ nextBrace t b ≤ t.length ∧
    ∀ ch ∈ Text.slice t b (nextBrace t b), ch ≠ '{' ∧ ch ≠ '}' := by
  unfold nextBrace
  cases hindex : Text.indexFrom? (fun c => c == '{' || c == '}') t b with
  | none =>
    refine ⟨hb, Nat.le_refl _, ?_⟩
    intro ch hch
    obtain ⟨k, hk, -, hkc⟩ := Text.mem_slice_iff.1 hch
    simpa using Text.indexFrom?_eq_none_iff.1 hindex k ch hk hkc
  | some j =>
    obtain ⟨hle, ⟨c, hc, -⟩, hbefore⟩ := Text.indexFrom?_eq_some_iff.1 hindex
    refine ⟨hle, Nat.le_of_lt (List.getElem?_eq_some_iff.1 hc).1, ?_⟩
    intro ch hch
    simpa using hbefore ch hch

/-- The next brace does not lie behind a given one. -/
theorem nextBrace_le (hopen : t[j]? = some '{') (hle : b ≤ j) : nextBrace t b ≤ j := by
  unfold nextBrace
  cases hindex : Text.indexFrom? (fun c => c == '{' || c == '}') t b with
  | none => exact absurd (Text.indexFrom?_eq_none_iff.1 hindex j '{' hle hopen) (by decide)
  | some k =>
    obtain ⟨-, -, hbefore⟩ := Text.indexFrom?_eq_some_iff.1 hindex
    by_contra hlt
    have hmem := Text.mem_slice_iff.2 ⟨j, hle, Nat.lt_of_not_le hlt, hopen⟩
    exact absurd (hbefore '{' hmem) (by decide)

theorem opener_of_mem (h : b ∈ loopBraces t) : t[b]? = some '{' := by
  rw [loopBraces, List.mem_eraseDups, List.mem_filterMap] at h
  obtain ⟨e, -, hindex⟩ := h
  obtain ⟨-, -, c, hc, hopen⟩ := Text.indexFrom?_spec hindex
  rw [hc, beq_iff_eq.1 hopen]

/-- **The pass over the loop words finds what the plain search finds.** The bodies it gives start one behind the other,
each ends in front of the start of the next one, and none of them holds a brace. -/
theorem braced_eq_plain (t : Text) :
    braced t = plainBraced t ∧
    (braced t).Pairwise (fun s u => s.1 < u.1 ∧ s.2 < u.1) ∧
    ∀ s ∈ braced t, s.1 ≤ s.2 ∧ s.2 ≤ t.length ∧ ∀ ch ∈ Text.slice t s.1 s.2, ch ≠ '{' ∧ ch ≠ '}' := by
  refine ⟨?_, ?_, ?_⟩
  · have hfirst : ∀ accepts, firstPlace? accepts t = Text.indexFrom? accepts t :=
      fun accepts => funext (firstPlace?_eq accepts t)
    rw [braced_eq_map, plainBraced, hfirst, hfirst]
    rfl
  · rw [braced_eq_map, List.pairwise_map]
    refine (pairwise_loopBraces t).imp_of_mem ?_
    intro b j _ hj hlt
    have hnext := nextBrace_le (opener_of_mem hj) (Nat.succ_le_of_lt hlt)
    exact ⟨Nat.succ_lt_succ hlt, Nat.lt_succ_of_le hnext⟩
  · intro s hs
    rw [braced_eq_map] at hs
    obtain ⟨b, hb, rfl⟩ := List.mem_map.1 hs
    exact nextBrace_spec (List.getElem?_eq_some_iff.1 (opener_of_mem hb)).1

end CodeSurvey.LoopBody
