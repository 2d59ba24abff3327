import CodeSurvey.Metric.Decision
import CodeSurvey.Proofs.Pattern.Narrow
import CodeSurvey.Proofs.Pattern.Plain
import CodeSurvey.Proofs.RoundTrip.Signature
import CodeSurvey.Proofs.Source.Method
import CodeSurvey.Proofs.Source.Placement
import CodeSurvey.Proofs.Text.Words

/-!
# Branches and loops, scanned and counted

A scan lists the branches and loops of a text, and complexity counts them. The patterns are not the same: a
scan also lists `switch`, and in the markup dialects conjunctions, choices and callbacks. Nothing of that
hides a branch or a loop. Inside a word no keyword starts, and what is not a word has no letters to start
one with; the one exception is the `for` of `.forEach`, which no bracket follows.

* `BranchAt`: where a branch is read, and `BranchAt.unique`: in one way only.
* `conditional_narrows`, `markupConditional_narrows`: scanned branches against counted ones.
* `loop_narrows`, `callbackLoop_narrows`: scanned loops against counted ones.
* `scan_counts`: the elements of a scan are those that complexity counts.
-/

namespace CodeSurvey

namespace Grammar.Braced

open Pattern
open Text (headKeywords loopKeywords mem_loopKeywords_of_head)

variable {limit : Nat} {c : Cursor} {m : Match} {r s : Reading} {lead lead' w w' x y : Text}

/-! ## What a match says it is -/

/-- Whether a match says that it is one of these. -/
def kindIn (kinds : List String) (m : Match) : Bool :=
  (m.group? "kind").any (kinds.map String.toList).contains

theorem group?_mark {stop : Cursor} {captures : List Capture} {start : Cursor} {role variant : String}
    (h : c.after = w ++ y) : Match.group? ⟨start, stop, ⟨⟨role, variant⟩, c, c.advance w.length⟩ :: captures⟩
      role = some w := by
  rw [Match.group?, Match.capture?, List.find?_cons_of_pos (by simp), Option.map_some,
    Capture.text_eq _ h]

/-! ## Branches -/

/-- A branch, given the pattern for its word. -/
def branch (word : Pattern) : Pattern :=
  edge ++ opt (lit "else" ++ someBlanks) ++ word ++ ahead (blanks ++ lit "(")

/-- What may stand in front of the word of a branch. -/
def IsLead (x : Text) : Prop :=
  x = [] ∨ ∃ b, b ≠ [] ∧ (∀ ch ∈ b, Text.isBlank ch = true) ∧ x = "else".toList ++ b

/-- **A branch is read at a cursor**: a word starts or ends there, the lead and the word follow, and behind
them a bracket. -/
structure BranchAt (limit : Nat) (lead w : Text) (c : Cursor) : Prop where
  edge : c.atEdge = true
  isLead : IsLead lead
  follows : lead ++ w <+: c.after
  bracket : (blanks ++ lit "(").stops limit (c.advance (lead ++ w).length) ≠ []

theorem spelled_lead : (opt (lit "else" ++ someBlanks)).Spelled x ↔ IsLead x := by
  constructor
  · intro h
    obtain ⟨_, _, rfl, ⟨_, b, ⟨ch, hch, rfl⟩, hb, rfl⟩, rfl⟩ | rfl := h
    · exact Or.inr ⟨ch :: b, by simp, List.forall_mem_cons.2 ⟨hch, hb⟩, rfl⟩
    · exact Or.inl rfl
  · intro h
    obtain rfl | ⟨b, hne, hb, rfl⟩ := h
    · exact Or.inr rfl
    · obtain ⟨ch, b, rfl⟩ := List.exists_cons_of_ne_nil hne
      rw [List.forall_mem_cons] at hb
      exact Or.inl ⟨_, _, rfl, ⟨_, b, ⟨ch, hb.1, rfl⟩, hb.2, rfl⟩, rfl⟩

theorem mem_outcomes_lead : s ∈ (opt (lit "else" ++ someBlanks)).outcomes limit r ↔
    ∃ x, IsLead x ∧ x <+: r.cursor.after ∧ s = r.past x := by
  rw [mem_outcomes_plain _ rfl]
  simp only [spelled_lead]

/-- The outcomes of a branch whose word is one of several. -/
theorem mem_outcomes_branch {word : Pattern} {words : List Text} {go : Reading → Text → Reading}
    (hword : ∀ r s, s ∈ word.outcomes limit r ↔ ∃ w ∈ words, w <+: r.cursor.after ∧ s = go r w)
    (hgo : ∀ r w, (go r w).cursor = r.cursor.advance w.length) :
    s ∈ (branch word).outcomes limit r ↔
      ∃ lead, ∃ w ∈ words, BranchAt limit lead w r.cursor ∧ s = go (r.past lead) w := by
  have hbracket : ∀ s : Reading, (!((blanks ++ lit "(").outcomes limit s).isEmpty) = true
      ↔ (blanks ++ lit "(").stops limit s.cursor ≠ [] := by
    intro s
    rw [isEmpty_outcomes rfl, Bool.not_eq_true', List.isEmpty_eq_false_iff]
  rw [branch, outcomes_ahead, List.mem_filter, hbracket, outcomes_append, List.mem_flatMap]
  simp only [outcomes_append, List.mem_flatMap, mem_outcomes_edge, mem_outcomes_lead, hword]
  have hstop : ∀ x w : Text, (go (r.past x) w).cursor = r.cursor.advance (x ++ w).length := by
    intro x w
    rw [hgo, Reading.past, Cursor.advance_advance, List.length_append]
  have hfollows : ∀ {x w : Text}, x <+: r.cursor.after →
      (w <+: (r.past x).cursor.after ↔ x ++ w <+: r.cursor.after) := by
    rintro x w ⟨y, hy⟩
    rw [Reading.past_after hy.symm, ← hy, List.prefix_append_right_inj]
  constructor
  · rintro ⟨⟨u, ⟨v, ⟨hedge, hv⟩, x, hx, hpre, rfl⟩, w, hw, hwpre, rfl⟩, hstops⟩
    subst v
    rw [hstop] at hstops
    exact ⟨x, w, hw, ⟨hedge, hx, (hfollows hpre).1 hwpre, hstops⟩, rfl⟩
  · rintro ⟨x, w, hw, h, rfl⟩
    have hpre : x <+: r.cursor.after := (List.prefix_append x w).trans h.follows
    rw [hstop]
    exact ⟨⟨_, ⟨_, ⟨h.edge, rfl⟩, x, h.isLead, hpre, rfl⟩, w, hw, (hfollows hpre).2 h.follows, rfl⟩,
      h.bracket⟩

/-- The words of scanned branches. -/
def branchWords : List Text :=
  ["if".toList, "switch".toList]

theorem mem_branchWords : w ∈ branchWords ↔ w = "if".toList ∨ w = "switch".toList := by
  simp [branchWords]

/-- **A branch is read in one way only.** -/
theorem BranchAt.unique (h : BranchAt limit lead w c) (h' : BranchAt limit lead' w' c)
    (hw : w ∈ branchWords) (hw' : w' ∈ branchWords) : lead = lead' ∧ w = w' := by
  have hsplit : ∀ {u u' z z' : Text}, u ∈ branchWords → u' ∈ branchWords → u ++ z = u' ++ z' →
      u = u' := by
    intro u u' z z' hu hu' heq
    rw [mem_branchWords] at hu hu'
    rcases hu with rfl | rfl <;> rcases hu' with rfl | rfl <;> simp_all
  have hblank : ∀ {u z : Text}, u ∈ branchWords → ∀ ch ∈ (u ++ z).head?, Text.isBlank ch = false := by
    intro u z hu ch hch
    rcases mem_branchWords.1 hu with rfl | rfl <;> obtain rfl := Option.mem_some_iff.1 hch <;> decide
  obtain ⟨z, hz⟩ := h.follows
  obtain ⟨z', hz'⟩ := h'.follows
  have heq : lead ++ (w ++ z) = lead' ++ (w' ++ z') := by
    rw [← List.append_assoc, ← List.append_assoc, hz, hz']
  rcases h.isLead with rfl | ⟨b, -, hb, rfl⟩ <;> rcases h'.isLead with rfl | ⟨b', -, hb', rfl⟩
  · exact ⟨rfl, hsplit hw hw' heq⟩
  · -- a word of a branch does not start as "else" does
    rcases mem_branchWords.1 hw with rfl | rfl <;> simp at heq
  · rcases mem_branchWords.1 hw' with rfl | rfl <;> simp at heq
  · rw [List.append_assoc, List.append_assoc, List.append_cancel_left_eq] at heq
    obtain ⟨rfl, hrest⟩ := Text.eq_of_append_eq heq hb hb' (hblank hw) (hblank hw')
    exact ⟨rfl, hsplit hw hw' hrest⟩

/-- A branch is read if and only if it stands there. -/
theorem readAt?_branch {word : Pattern} (words : List Text) (go : Reading → Text → Reading)
    (hword : ∀ r s, s ∈ word.outcomes limit r ↔ ∃ w ∈ words, w <+: r.cursor.after ∧ s = go r w)
    (hgo : ∀ r w, (go r w).cursor = r.cursor.advance w.length)
    (hwords : ∀ w ∈ words, w ∈ branchWords) : (branch word).readAt? limit c = some m ↔
      ∃ lead, ∃ w ∈ words, BranchAt limit lead w c ∧
        m = ⟨c, c.advance (lead ++ w).length, (go ⟨c.advance lead.length, []⟩ w).captures⟩ := by
  have hmatch : ∀ lead w : Text, (⟨c, (go (Reading.past ⟨c, []⟩ lead) w).cursor,
      (go (Reading.past ⟨c, []⟩ lead) w).captures⟩ : Match)
        = ⟨c, c.advance (lead ++ w).length, (go ⟨c.advance lead.length, []⟩ w).captures⟩ := by
    intro lead w
    rw [hgo, Reading.past, Cursor.advance_advance, List.length_append]
  have hmem := fun s => mem_outcomes_branch (s := s) (r := ⟨c, []⟩) hword hgo
  rw [readAt?_eq, Option.map_eq_some_iff]
  constructor
  · rintro ⟨s, hs, rfl⟩
    obtain ⟨lead, w, hw, h, rfl⟩ := (hmem s).1 (List.mem_of_mem_head? hs)
    exact ⟨lead, w, hw, h, hmatch lead w⟩
  · rintro ⟨lead, w, hw, h, rfl⟩
    have hin := (hmem _).2 ⟨lead, w, hw, h, rfl⟩
    obtain ⟨s, l, hl⟩ := List.exists_cons_of_ne_nil (List.ne_nil_of_mem hin)
    obtain ⟨lead', w', hw', h', rfl⟩ := (hmem s).1 (hl ▸ List.mem_cons_self)
    obtain ⟨rfl, rfl⟩ := h.unique h' (hwords w hw) (hwords w' hw')
    exact ⟨_, by rw [hl]; rfl, hmatch _ _⟩

/-- A counted branch is read if and only if it stands there. -/
theorem readAt?_counted : (branch (lit "if")).readAt? limit c = some m ↔
    ∃ lead, BranchAt limit lead "if".toList c ∧ m = ⟨c, c.advance (lead ++ "if".toList).length, []⟩ := by
  rw [readAt?_branch ["if".toList] Reading.past]
  · simp [Reading.past]
  · intro r s
    rw [lit, mem_outcomes_text]
    simp
  · intro r w
    rfl
  · simp [branchWords]

/-- A scanned branch is read if and only if it stands there. -/
theorem readAt?_conditional : conditional.readAt? limit c = some m ↔
    ∃ lead, ∃ w ∈ branchWords, BranchAt limit lead w c ∧
      m = ⟨c, c.advance (lead ++ w).length,
        [⟨⟨"kind", ""⟩, c.advance lead.length, (c.advance lead.length).advance w.length⟩]⟩ := by
  rw [show conditional = branch (role "kind" (words ["if", "switch"])) from rfl,
    readAt?_branch branchWords fun r w => r.mark ⟨"kind", ""⟩ w]
  · simp [Reading.mark]
  · intro r s
    rw [role, mem_outcomes_group_words (by simp)]
    simp [branchWords]
  · intro r w
    rfl
  · exact fun w hw => hw

/-! ## Words and blanks inside a match -/

/-- Behind a run of word characters stands nothing that a pattern starts with. -/
theorem isChain_run {starts : Char → Bool} (hx : x.all Text.isWord = true)
    (hy : ∀ b ∈ y, starts b = false) :
    (x ++ y).IsChain fun a b => Text.isWord a = true ∨ starts b = false := by
  rw [List.isChain_iff_getElem]
  intro i hi
  rcases Nat.lt_or_ge i x.length with hix | hix
  · refine Or.inl (List.all_eq_true.1 hx _ ?_)
    rw [List.getElem_append_left hix]
    exact List.getElem_mem hix
  · refine Or.inr (hy _ ?_)
    rw [List.getElem_append_right (by omega)]
    exact List.getElem_mem _

/-- Where a word starts, none goes on. -/
theorem lastIs_of_atEdge {ch : Char} (hedge : c.atEdge = true) (hafter : c.after = ch :: y)
    (hch : Text.isWord ch = true) : c.lastIs Text.isWord = false := by
  have hnext : c.nextIs Text.isWord = true := by
    rw [Cursor.nextIs, hafter]
    exact hch
  rw [Cursor.atEdge, hnext] at hedge
  simpa using hedge

/-! ## Scanned branches and counted ones -/

/-- The characters that a counted branch starts with. -/
def startsBranch (ch : Char) : Bool :=
  ch == 'e' || ch == 'i'

theorem starts_of_readAt?_counted (h : (branch (lit "if")).readAt? limit c = some m) :
    c.lastIs Text.isWord = false ∧ c.nextIs startsBranch = true := by
  obtain ⟨lead, hbranch, -⟩ := readAt?_counted.1 h
  obtain ⟨ch, y, hafter, hch⟩ : ∃ ch y, c.after = ch :: y ∧ (ch = 'e' ∨ ch = 'i') := by
    obtain ⟨z, hz⟩ := hbranch.follows
    rcases hbranch.isLead with rfl | ⟨b, -, -, rfl⟩
    · exact ⟨'i', 'f' :: z, hz.symm, Or.inr rfl⟩
    · exact ⟨'e', _, hz.symm, Or.inl rfl⟩
  refine ⟨lastIs_of_atEdge hbranch.edge hafter ?_, ?_⟩
  · rcases hch with rfl | rfl <;> decide
  · rw [Cursor.nextIs, hafter]
    rcases hch with rfl | rfl <;> rfl

theorem startsBranch_of_isBlank {ch : Char} (h : Text.isBlank ch = true) : startsBranch ch = false := by
  by_contra hstart
  simp only [startsBranch, Bool.not_eq_false, Bool.or_eq_true, beq_iff_eq] at hstart
  rcases hstart with rfl | rfl <;> exact absurd h (by decide)

/-- Inside `switch`, with what stands in front of it, no counted branch starts. -/
theorem isChain_switch (hlead : IsLead lead) : (lead ++ "switch".toList).IsChain
    fun a b => Text.isWord a = true ∨ startsBranch b = false := by
  have hswitch : (['s'] ++ "witch".toList).IsChain
      fun a b => Text.isWord a = true ∨ startsBranch b = false := by decide
  rcases hlead with rfl | ⟨b, -, hb, rfl⟩
  · exact hswitch
  · have hfront : ("else".toList ++ (b ++ ['s'])).IsChain
        fun a b => Text.isWord a = true ∨ startsBranch b = false := by
      refine isChain_run (by decide) fun ch hch => ?_
      rcases List.mem_append.1 hch with hch | hch
      · exact startsBranch_of_isBlank (hb ch hch)
      · obtain rfl := List.mem_singleton.1 hch
        rfl
    rw [← List.append_assoc] at hfront
    have hall := hfront.append_overlap hswitch (by simp)
    simpa using hall

/-- The kind of a scanned branch is its word. -/
theorem kind_branch (h : BranchAt limit lead w c) : Match.group? ⟨c, c.advance (lead ++ w).length,
    [⟨⟨"kind", ""⟩, c.advance lead.length, (c.advance lead.length).advance w.length⟩]⟩ "kind"
      = some w := by
  obtain ⟨z, hz⟩ := h.follows
  refine group?_mark (y := z) ?_
  rw [Cursor.advance_after, ← hz, List.append_assoc, List.drop_left]

/-- **Scanned branches are the counted ones and `switch`.** -/
theorem conditional_narrows (limit : Nat) :
    Narrows limit conditional (branch (lit "if")) (kindIn ["if"]) := by
  refine ⟨?_, ?_, ?_⟩
  · intro c m hread hkeep
    obtain ⟨lead, w, hw, hbranch, rfl⟩ := readAt?_conditional.1 hread
    rw [kindIn, kind_branch hbranch] at hkeep
    obtain rfl : w = "if".toList := by simpa using hkeep
    exact ⟨_, readAt?_counted.2 ⟨lead, hbranch, rfl⟩, rfl⟩
  · intro c m hread
    obtain ⟨lead, hbranch, rfl⟩ := readAt?_counted.1 hread
    refine ⟨_, readAt?_conditional.2 ⟨lead, _, List.mem_cons_self, hbranch, rfl⟩, ?_⟩
    rw [kindIn, kind_branch hbranch]
    rfl
  · intro c m hread hkeep i hi
    obtain ⟨lead, w, hw, hbranch, rfl⟩ := readAt?_conditional.1 hread
    rw [kindIn, kind_branch hbranch] at hkeep
    obtain rfl : w = "switch".toList := by
      rcases mem_branchWords.1 hw with rfl | rfl
      · cases hkeep
      · rfl
    obtain ⟨z, hz⟩ := hbranch.follows
    rcases Nat.eq_zero_or_pos i with rfl | hpos
    · -- at the same place the counted branch would be another way to read this one
      cases hnone : (branch (lit "if")).readAt? limit (c.advance 0) with
      | none => rfl
      | some m' =>
        rw [Cursor.advance_zero] at hnone
        obtain ⟨lead', hif, -⟩ := readAt?_counted.1 hnone
        have hword := (hbranch.unique hif hw List.mem_cons_self).2
        exact absurd hword (by decide)
    · refine readAt?_inside starts_of_readAt?_counted hz.symm (isChain_switch hbranch.isLead) hpos ?_
      simp only [Match.last, Match.first] at hi
      rw [c.advance_place hbranch.follows.length_le] at hi
      omega

/-- A group that is read by itself takes a text, and the match says that it is this text. -/
theorem exists_of_readAt?_group {p : Pattern} {variant : String}
    (h : (group ⟨"kind", variant⟩ p).readAt? limit c = some m) :
    ∃ x y, p.Spelled x ∧ c.after = x ++ y ∧ m.last - m.first = x.length ∧
      m.group? "kind" = some x := by
  rw [readAt?_eq, Option.map_eq_some_iff] at h
  obtain ⟨s, hs, rfl⟩ := h
  have hmem := List.mem_of_mem_head? hs
  rw [outcomes, List.mem_map] at hmem
  obtain ⟨u, hu, rfl⟩ := hmem
  obtain ⟨x, hx, hafter, hstop⟩ := exists_spelled_advance hu
  simp only at hafter hstop
  have hplace := c.advance_place (n := x.length) (by simp [hafter])
  refine ⟨x, u.cursor.after, hx, hafter, ?_, ?_⟩
  · simp only [Match.last, Match.first, hstop, hplace]
    omega
  · rw [hstop]
    exact group?_mark hafter

/-- **In the markup dialects, conjunctions and choices hide no branch.** -/
theorem markupConditional_narrows (limit : Nat) :
    Narrows limit Scripted.markupConditional (branch (lit "if")) (kindIn ["if"]) := by
  refine (conditional_narrows limit).orElse ?_
  intro c m hread
  rw [readAt?_alt, Option.or_eq_some_iff] at hread
  rcases hread with hread | ⟨-, hread⟩
  · obtain ⟨x, y, rfl, hafter, hlength, hkind⟩ := exists_of_readAt?_group hread
    refine ⟨?_, fun i hpos hi => ?_⟩
    · rw [kindIn, hkind]
      rfl
    · exact readAt?_inside starts_of_readAt?_counted hafter (by decide) hpos (by omega)
  · obtain ⟨x, y, ⟨_, _, ⟨_, _, rfl, rfl, rfl⟩, rfl, rfl⟩, hafter, hlength, hkind⟩ :=
      exists_of_readAt?_group hread
    refine ⟨?_, fun i hpos hi => ?_⟩
    · rw [kindIn, hkind]
      rfl
    · rw [hlength] at hi
      exact absurd hpos (by simpa using hi)

/-! ## Scanned loops and counted ones -/

theorem mem_of_mem_notAhead {p q : Pattern} (h : s ∈ (p ++ notAhead q).outcomes limit r) :
    s ∈ p.outcomes limit r := by
  rw [outcomes_append, List.mem_flatMap] at h
  obtain ⟨u, hu, hs⟩ := h
  rw [(mem_outcomes_notAhead.1 hs).2]
  exact hu

/-- One of several words at an edge, with a test behind it. -/
theorem mem_outcomes_word_ahead {l : List String} (hl : l ≠ []) (label : Label) {p : Pattern} :
    s ∈ (edge ++ group label (words l) ++ ahead p).outcomes limit r ↔ ∃ w ∈ l, r.cursor.atEdge = true ∧
      w.toList <+: r.cursor.after ∧ (∃ q, q ∈ p.outcomes limit (r.mark label w.toList)) ∧
      s = r.mark label w.toList := by
  simp only [outcomes_append, List.mem_flatMap, mem_outcomes_edge, mem_outcomes_group_words hl, mem_outcomes_ahead]
  constructor
  · intro h
    obtain ⟨u, ⟨v, ⟨hedge, rfl⟩, w, hw, hpre, rfl⟩, hahead, rfl⟩ := h
    exact ⟨w, hw, hedge, hpre, hahead, rfl⟩
  · intro h
    obtain ⟨w, hw, hedge, hpre, hahead, rfl⟩ := h
    exact ⟨_, ⟨r, ⟨hedge, rfl⟩, w, hw, hpre, rfl⟩, hahead, rfl⟩

theorem exists_of_mem_word {l : List String} {variant : String} {p : Pattern} (hl : l ≠ [])
    (h : s ∈ (edge ++ group ⟨"kind", variant⟩ (words l) ++ ahead p).outcomes limit ⟨c, []⟩) :
    ∃ w ∈ l, ∃ x y, c.atEdge = true ∧ p.Spelled x ∧ c.after = w.toList ++ (x ++ y) ∧
      Match.group? ⟨c, s.cursor, s.captures⟩ "kind" = some w.toList := by
  obtain ⟨w, hw, hedge, ⟨y, hy⟩, ⟨v, hv⟩, rfl⟩ := (mem_outcomes_word_ahead hl _).1 h
  obtain ⟨x, hx, hafter⟩ := exists_spelled p _ v hv
  rw [Reading.mark_after _ hy.symm] at hafter
  exact ⟨w, hw, x, v.cursor.after, hedge, hx, by rw [← hy, hafter], group?_mark hy.symm⟩

/-- What a loop has behind its word: blanks, a bracket, a brace, or the word `await`. -/
def isLoopRest (ch : Char) : Bool :=
  Text.isBlank ch || "a(\x7b".toList.contains ch

/-- **A loop is read at its word**: the word starts there and does not go on as other words do. -/
theorem exists_of_readAt?_loop (h : loop.readAt? limit c = some m) : ∃ w ∈ loopKeywords, ∃ ch y,
    c.atEdge = true ∧ c.after = w.toList ++ ch :: y ∧ isLoopRest ch = true ∧
      m.group? "kind" = some w.toList := by
  rw [readAt?_eq, Option.map_eq_some_iff] at h
  obtain ⟨s, hs, rfl⟩ := h
  have hblank : ∀ {b : Text} (ch : Char), (∀ d ∈ b, Text.isBlank d = true) → isLoopRest ch = true →
      ∀ z, ∃ d y, b ++ ch :: z = d :: y ∧ isLoopRest d = true := by
    intro b ch hb hch z
    cases b with
    | nil => exact ⟨ch, z, rfl, hch⟩
    | cons d b => exact ⟨d, _, rfl, by simp [isLoopRest, hb d List.mem_cons_self]⟩
  rcases List.mem_append.1 (List.mem_of_mem_head? hs) with hmem | hmem
  · obtain ⟨w, hw, _, y, hedge, ⟨_, _, ⟨b, a, hb, ha, rfl⟩, rfl, rfl⟩, hafter, hkind⟩ :=
      exists_of_mem_word (by simp) (mem_of_mem_notAhead hmem)
    have hrest : ∃ d z, b ++ a ++ "(".toList ++ y = d :: z ∧ isLoopRest d = true := by
      rcases ha with ⟨_, b', rfl, -, rfl⟩ | rfl
      · simpa using hblank 'a' hb (by decide) _
      · simpa using hblank '(' hb (by decide) y
    obtain ⟨ch, z, hz, hch⟩ := hrest
    exact ⟨w, mem_loopKeywords_of_head hw, ch, z, hedge, hz ▸ hafter, hch, hkind⟩
  · obtain ⟨w, hw, _, y, hedge, ⟨b, _, hb, rfl, rfl⟩, hafter, hkind⟩ :=
      exists_of_mem_word (l := ["do"]) (by simp) hmem
    obtain ⟨ch, z, hz, hch⟩ := hblank '{' hb (by decide) y
    refine ⟨w, List.mem_append_right headKeywords hw, ch, z, hedge, ?_, hch, hkind⟩
    rw [hafter, ← hz]
    simp

/-- The characters that a loop starts with. -/
def startsLoop (ch : Char) : Bool :=
  ch == 'f' || ch == 'w' || ch == 'd'

theorem starts_of_readAt?_loop (h : loop.readAt? limit c = some m) :
    c.lastIs Text.isWord = false ∧ c.nextIs startsLoop = true := by
  obtain ⟨w, hw, ch, y, hedge, hafter, -, -⟩ := exists_of_readAt?_loop h
  obtain ⟨d, z, hz, hd⟩ : ∃ d z, c.after = d :: z ∧ startsLoop d = true := by
    simp only [loopKeywords, headKeywords, List.cons_append, List.nil_append, List.mem_cons, List.not_mem_nil,
      or_false] at hw
    rcases hw with rfl | rfl | rfl | rfl <;> exact ⟨_, _, hafter, rfl⟩
  refine ⟨lastIs_of_atEdge hedge hz ?_, ?_⟩
  · simp only [startsLoop, Bool.or_eq_true, beq_iff_eq] at hd
    rcases hd with (rfl | rfl) | rfl <;> decide
  · rw [Cursor.nextIs, hz]
    exact hd

/-- Every loop that is read by its word says that it is one of these. -/
theorem loop_narrows (limit : Nat) : Narrows limit loop loop (kindIn loopKeywords) := by
  have hkeep : ∀ {c m}, loop.readAt? limit c = some m → kindIn loopKeywords m = true := by
    intro c m hread
    obtain ⟨w, hw, -, -, -, -, -, hkind⟩ := exists_of_readAt?_loop hread
    rw [kindIn, hkind, Option.any_some, List.contains_eq_mem, decide_eq_true_eq]
    exact List.mem_map_of_mem hw
  refine ⟨?_, ?_, ?_⟩
  · intro c m hread _
    exact ⟨m, hread, rfl⟩
  · intro c m hread
    exact ⟨m, hread, hkeep hread⟩
  · intro c m hread hnot
    rw [hkeep hread] at hnot
    cases hnot

/-- The names of the callbacks. -/
def callbackWords : List String :=
  ["map", "forEach", "filter"]

theorem exists_of_readAt?_callbackLoop (h : Scripted.callbackLoop.readAt? limit c = some m) :
    ∃ w ∈ callbackWords, ∃ b y, (∀ ch ∈ b, Text.isBlank ch = true) ∧
      c.after = '.' :: (w.toList ++ (b ++ ['('])) ++ y ∧
      m.last - m.first = 1 + (w.toList ++ (b ++ ['('])).length ∧ m.group? "kind" = some w.toList := by
  rw [readAt?_eq, Option.map_eq_some_iff] at h
  obtain ⟨s, hs, rfl⟩ := h
  have hmem := List.mem_of_mem_head? hs
  rw [Scripted.callbackLoop, outcomes_append, List.mem_flatMap] at hmem
  simp only [outcomes_append, List.mem_flatMap, lit, mem_outcomes_text] at hmem
  obtain ⟨u, ⟨v, ⟨r, ⟨⟨y, hdot⟩, rfl⟩, hv⟩, hu⟩, ⟨z, hbracket⟩, rfl⟩ := hmem
  obtain ⟨w, hw, ⟨y', hword⟩, rfl⟩ := (mem_outcomes_group_words (by simp) _).1 hv
  obtain ⟨b, hb, ⟨y'', hblanks⟩, rfl⟩ := mem_outcomes_span.1 hu
  -- the text behind each part in turn
  have hname := Reading.past_after (r := ⟨c, []⟩) hdot.symm
  have hgap := Reading.mark_after ⟨"kind", "_method"⟩ hword.symm
  have hlast := Reading.past_after hblanks.symm
  rw [hname] at hword
  rw [hgap] at hblanks
  rw [hlast] at hbracket
  have hafter : c.after = '.' :: (w.toList ++ (b ++ ['('])) ++ z := by
    rw [← hdot, ← hword, ← hblanks, ← hbracket]
    simp
  refine ⟨w, hw, b, z, hb, hafter, ?_, group?_mark (hname.trans hword.symm)⟩
  have hstop : (((((⟨c, []⟩ : Reading).past ".".toList).mark ⟨"kind", "_method"⟩ w.toList).past b).past
      "(".toList).cursor = c.advance (1 + (w.toList ++ (b ++ ['('])).length) := by
    simp [Reading.past, Reading.mark, Cursor.advance_advance, Nat.add_assoc]
  have hlen : 1 + (w.toList ++ (b ++ ['('])).length ≤ c.after.length := by
    rw [hafter]
    simp
    omega
  simp only [Match.last, Match.first, hstop, c.advance_place hlen]
  omega

/-- No loop starts at the name of a callback: the word of `forEach` goes on behind its `for`. -/
theorem readAt?_callback (hx : x ∈ callbackWords.map String.toList) (hafter : c.after = x ++ y) :
    loop.readAt? limit c = none := by
  cases hread : loop.readAt? limit c with
  | none => rfl
  | some m =>
    obtain ⟨w, hw, ch, z, -, heq, hch, -⟩ := exists_of_readAt?_loop hread
    rw [hafter] at heq
    simp only [callbackWords, loopKeywords, headKeywords, List.cons_append, List.nil_append, List.map_cons,
      List.map_nil, List.mem_cons, List.not_mem_nil, or_false] at hx hw
    rcases hx with rfl | rfl | rfl <;> rcases hw with rfl | rfl | rfl | rfl <;> simp at heq
    obtain ⟨rfl, -⟩ := heq
    exact absurd hch (by decide)

/-- **In the markup dialects, callbacks hide no loop.** -/
theorem callbackLoop_narrows (limit : Nat) :
    Narrows limit (loop <|> Scripted.callbackLoop) loop (kindIn loopKeywords) := by
  refine (loop_narrows limit).orElse ?_
  intro c m hread
  obtain ⟨w, hw, b, y, hb, hafter, hlength, hkind⟩ := exists_of_readAt?_callbackLoop hread
  refine ⟨?_, fun i hpos hi => ?_⟩
  · rw [kindIn, hkind]
    simp only [callbackWords, List.mem_cons, List.not_mem_nil, or_false] at hw
    rcases hw with rfl | rfl | rfl <;> rfl
  · have hnext : (c.advance 1).after = w.toList ++ (b ++ ['(']) ++ y := by
      rw [Cursor.advance_after, hafter]
      rfl
    obtain ⟨j, rfl⟩ : ∃ j, i = 1 + j := ⟨i - 1, by omega⟩
    rw [← Cursor.advance_advance]
    rcases Nat.eq_zero_or_pos j with rfl | hj
    · rw [Cursor.advance_zero]
      rw [List.append_assoc] at hnext
      exact readAt?_callback (List.mem_map_of_mem hw) hnext
    · refine readAt?_inside starts_of_readAt?_loop hnext (isChain_run ?_ ?_) hj (by omega)
      · simp only [callbackWords, List.mem_cons, List.not_mem_nil, or_false] at hw
        rcases hw with rfl | rfl | rfl <;> decide
      · intro ch hch
        by_contra hstart
        simp only [startsLoop, Bool.not_eq_false, Bool.or_eq_true, beq_iff_eq] at hstart
        rcases List.mem_append.1 hch with hch | hch
        · have hblank := hb ch hch
          rcases hstart with (rfl | rfl) | rfl <;> exact absurd hblank (by decide)
        · obtain rfl := List.mem_singleton.1 hch
          exact absurd hstart (by decide)

end Grammar.Braced

/-! ## Scans and counts -/

namespace Scan

open Pattern Grammar

/-- The elements of a scan that are of one kind and, within it, of one of these types. -/
def ofTypes (s : Scan) (kind : ElementKind) (types : List String) : List Element :=
  (s.ofKind kind).filter fun e => e.type.any (types.map String.toList).contains

/-- The scanned elements of certain types start where a narrower pattern is found. -/
theorem offset_ofTypes {language : Language} {t : Text} {kind : ElementKind} {wide narrow : Pattern}
    {types : List String} (hkind : (ofText language t).ofKind kind
      = (wide.findAll t).map (Element.ofKind t kind)) (hwidth : 0 < wide.minWidth)
    (hnarrows : Narrows t.length wide narrow (Braced.kindIn types)) :
    ((ofText language t).ofTypes kind types).map (·.offset)
      = (narrow.findAll t).map Match.first := by
  have hfilter : (ofText language t).ofTypes kind types
      = ((wide.findAll t).filter (Braced.kindIn types)).map (Element.ofKind t kind) := by
    rw [ofTypes, hkind, List.filter_map]
    rfl
  have hplaces := congrArg (List.map Prod.fst) (hnarrows.findAll hwidth)
  rw [List.map_map, List.map_map] at hplaces
  rw [hfilter, List.map_map]
  exact hplaces

/-- **A scan lists the constructs that complexity counts.** For every text of a language with braces: the
conditionals of a scan that are of type `if` start where the decision points of a conditional are found, so
that there are as many of one as of the other, and its loops of type `for`, `foreach`, `while` or `do`
where those of a loop are found. What else the scan lists in the markup dialects hides none of them. -/
theorem scan_counts (language : Language) (t : Text) (hbraces : language.usesBraces = true) :
    let s := ofText language t
    let terms := language.grammar.decisions
    let d := DecisionPoints.ofText terms t
    (s.ofTypes .conditional ["if"]).map (·.offset) = (terms.conditional.findAll t).map Match.first ∧
    (s.ofTypes .conditional ["if"]).length = d.conditionals ∧
    (s.ofTypes .loop ["for", "foreach", "while", "do"]).map (·.offset)
      = (terms.loop.findAll t).map Match.first ∧
    (s.ofTypes .loop ["for", "foreach", "while", "do"]).length = d.loops := by
  intro s terms d
  have hpos := language.grammar_positive
  have hkinds : ElementKind.conditional ∈ kinds language ∧ ElementKind.loop ∈ kinds language := by
    simp [kinds]
  have hconditional : Narrows t.length language.grammar.conditional terms.conditional
      (Braced.kindIn ["if"]) := by
    cases language with
    | python => cases hbraces
    | jsx | tsx => exact Braced.markupConditional_narrows _
    | javascript | typescript | java | csharp => exact Braced.conditional_narrows _
  have hloop : Narrows t.length language.grammar.loop terms.loop
      (Braced.kindIn ["for", "foreach", "while", "do"]) := by
    cases language with
    | python => cases hbraces
    | jsx | tsx => exact Braced.callbackLoop_narrows _
    | javascript | typescript | java | csharp => exact Braced.loop_narrows _
  have hbranches := offset_ofTypes (by rw [ofKind_eq, if_pos hkinds.1]; rfl) hpos.conditional
    hconditional
  have hloops := offset_ofTypes (by rw [ofKind_eq, if_pos hkinds.2]; rfl) hpos.loop hloop
  have hcount : ∀ {l : List Element} {l' : List Match}, l.map (·.offset) = l'.map Match.first →
      l.length = l'.length := by
    intro l l' h
    simpa using congrArg List.length h
  exact ⟨hbranches, hcount hbranches, hloops, hcount hloops⟩

theorem scan_counts_markup : Language.tsx.usesBraces = true ∧
    (let s := ofText .tsx
      "a && b ? l.forEach (f) : if (c) m.map(g); else if (d) switch (e) \x7b\x7d for (x of y) z".toList
    (s.ofTypes .conditional ["if"]).length = 2 ∧
      (s.ofTypes .loop ["for", "foreach", "while", "do"]).length = 1) := by
  have hcounts := scan_counts .tsx
    "a && b ? l.forEach (f) : if (c) m.map(g); else if (d) switch (e) \x7b\x7d for (x of y) z".toList rfl
  exact ⟨rfl, hcounts.2.1.trans (by decide +kernel), hcounts.2.2.2.trans (by decide +kernel)⟩

end Scan

end CodeSurvey
