import CodeSurvey.Proofs.Metric.Constructs
import CodeSurvey.Proofs.Pattern.Every

/-!
# How often a do loop is counted

A do loop is counted at the word that opens it. The word at its end looks like the head of a loop of its own, and is
left out if its condition is in brackets with no brackets inside and a semicolon follows. A condition that calls
something has brackets inside, so that the loop is counted twice.

Loops are counted where they can be read, place by place, and so stretch by stretch. In a text without loop words one
thing is still counted: a longer word that starts as a loop word and goes on with `await`, with a bracket behind.

* `Counted`: a loop is counted in front of a text, told by the text. `isSome_loop_iff`: where the pattern is read.
* `loopsIn`: the loops that start in a stretch of a text. `loopsIn_append`: those of two stretches.
* `loopsIn_plain`: a stretch without loop words counts as it does alone.
* `loops_doWhile`: how often a do loop is counted.
-/

namespace CodeSurvey

open Pattern
open Text (EndsApart BeginsApart FreeOfLoops endsApart_append endsApart_append_cons beginsApart_blanks headKeywords
  loopKeywords isWord_of_mem_loopKeywords mem_loopKeywords_of_head)

namespace Grammar.Braced

variable {limit i : Nat} {c : Cursor} {r s : Reading} {t u v x y z : Text}

/-! ## Loops, told by the text -/

/-- **A header comes next**: a bracket, or `await` and a bracket. -/
def Headed (y : Text) : Prop :=
  Text.ComesNext ['('] y ∨
    ∃ b z, (∀ ch ∈ b, Text.isBlank ch = true) ∧ y = b ++ ("await".toList ++ z) ∧ Text.ComesNext ['('] z

/-- **The end of a do loop comes next**: brackets with no brackets inside, and a semicolon. -/
def EndsDo (y : Text) : Prop :=
  ∃ b x z, (∀ ch ∈ b, Text.isBlank ch = true) ∧ '(' ∉ x ∧ ')' ∉ x ∧ y = b ++ '(' :: (x ++ ')' :: z) ∧
    Text.ComesNext [';'] z

/-- **A loop is counted in front of a text.** -/
def Counted (x : Text) : Prop :=
  (∃ w ∈ headKeywords, ∃ y, x = w.toList ++ y ∧ Headed y ∧ ¬ EndsDo y) ∨
    ∃ y, x = "do".toList ++ y ∧ Text.ComesNext ['{'] y

theorem exists_outcome_headed :
    (∃ s, s ∈ (blanks ++ opt (lit "await" ++ blanks) ++ lit "(").outcomes limit r) ↔ Headed r.cursor.after := by
  rw [exists_outcome_plain rfl]
  constructor
  · intro h
    obtain ⟨_, ⟨_, _, ⟨b, a, hb, ha, rfl⟩, rfl, rfl⟩, y, hy⟩ := h
    obtain ⟨_, b', rfl, hb', rfl⟩ | rfl := ha
    · exact Or.inr ⟨b, b' ++ '(' :: y, hb, by rw [← hy]; simp, b', y, hb', rfl⟩
    · exact Or.inl ⟨b, y, hb, by rw [← hy]; simp⟩
  · intro h
    obtain ⟨b, y, hb, hafter⟩ | ⟨b, _, hb, hafter, b', y, hb', rfl⟩ := h
    · exact ⟨_, ⟨_, _, ⟨b, [], hb, Or.inr rfl, rfl⟩, rfl, rfl⟩, y, by rw [hafter]; simp⟩
    · exact ⟨_, ⟨_, _, ⟨b, _, hb, Or.inl ⟨_, b', rfl, hb', rfl⟩, rfl⟩, rfl, rfl⟩, y, by rw [hafter]; simp⟩

theorem exists_outcome_endsDo :
    (∃ s, s ∈ (blanks ++ lit "(" ++ unbracketed ++ lit ")" ++ blanks ++ lit ";").outcomes limit r) ↔
      EndsDo r.cursor.after := by
  have hfree : ∀ x : Text, unbracketed.Spelled x ↔ '(' ∉ x ∧ ')' ∉ x := by
    intro x
    show (∀ ch ∈ x, (!(['(', ')'].contains ch)) = true) ↔ _
    constructor
    · intro h
      exact ⟨fun hmem => absurd (h _ hmem) (by decide), fun hmem => absurd (h _ hmem) (by decide)⟩
    · intro h ch hch
      have hne : ch ≠ '(' ∧ ch ≠ ')' := by
        constructor <;> rintro rfl
        · exact h.1 hch
        · exact h.2 hch
      simpa using hne
  rw [exists_outcome_plain rfl]
  constructor
  · intro h
    obtain ⟨_, ⟨_, _, ⟨_, b', ⟨_, _, ⟨_, x, ⟨b, _, hb, rfl, rfl⟩, hx, rfl⟩, rfl, rfl⟩, hb', rfl⟩, rfl, rfl⟩, y, hy⟩ := h
    obtain ⟨hopen, hclose⟩ := (hfree x).1 hx
    exact ⟨b, x, b' ++ ';' :: y, hb, hopen, hclose, by rw [← hy]; simp, b', y, hb', rfl⟩
  · intro h
    obtain ⟨b, x, _, hb, hopen, hclose, hafter, b', y, hb', rfl⟩ := h
    have hx := (hfree x).2 ⟨hopen, hclose⟩
    refine ⟨_, ⟨_, _, ⟨_, b', ⟨_, _, ⟨_, x, ⟨b, _, hb, rfl, rfl⟩, hx, rfl⟩, rfl, rfl⟩, hb', rfl⟩, rfl, rfl⟩, y, ?_⟩
    rw [hafter]
    simp

theorem mem_outcomes_headedLoop : s ∈ headedLoop.outcomes limit r ↔ ∃ w ∈ headKeywords, ∃ y,
    r.cursor.atEdge = true ∧ r.cursor.after = w.toList ++ y ∧ Headed y ∧ ¬ EndsDo y ∧
      s = r.mark ⟨"kind", ""⟩ w.toList := by
  rw [headedLoop, outcomes_append, List.mem_flatMap]
  simp only [role, mem_outcomes_word_ahead (l := ["for", "foreach", "while"]) (by simp), mem_outcomes_notAhead,
    exists_outcome_headed, ← not_exists, exists_outcome_endsDo]
  constructor
  · intro h
    obtain ⟨v, ⟨w, hw, hedge, ⟨y, hy⟩, hhead, rfl⟩, hends, rfl⟩ := h
    rw [Reading.mark_after _ hy.symm] at hhead hends
    exact ⟨w, hw, y, hedge, hy.symm, hhead, hends, rfl⟩
  · intro h
    obtain ⟨w, hw, y, hedge, hafter, hhead, hends, rfl⟩ := h
    rw [← Reading.mark_after ⟨"kind", ""⟩ hafter] at hhead hends
    exact ⟨_, ⟨w, hw, hedge, ⟨y, hafter.symm⟩, hhead, rfl⟩, hends, rfl⟩

theorem mem_outcomes_doLoop : s ∈ doLoop.outcomes limit r ↔ ∃ y, r.cursor.atEdge = true ∧
    r.cursor.after = "do".toList ++ y ∧ Text.ComesNext ['{'] y ∧ s = r.mark ⟨"kind", "_do"⟩ "do".toList := by
  show s ∈ (edge ++ group ⟨"kind", "_do"⟩ (words ["do"]) ++ ahead (blanks ++ text ['{'])).outcomes limit r ↔ _
  rw [mem_outcomes_word_ahead (by simp)]
  simp only [exists_outcome_blanks_text]
  constructor
  · intro h
    obtain ⟨w, hw, hedge, ⟨y, hy⟩, hnext, rfl⟩ := h
    obtain rfl := List.mem_singleton.1 hw
    rw [Reading.mark_after _ hy.symm] at hnext
    exact ⟨y, hedge, hy.symm, hnext, rfl⟩
  · intro h
    obtain ⟨y, hedge, hafter, hnext, rfl⟩ := h
    rw [← Reading.mark_after ⟨"kind", "_do"⟩ hafter] at hnext
    exact ⟨_, List.mem_singleton_self _, hedge, ⟨y, hafter.symm⟩, hnext, rfl⟩

/-- A loop is read at a word, and no further than to its end. -/
theorem exists_word_of_mem_loop (h : s ∈ loop.outcomes limit r) : ∃ w ∈ loopKeywords, ∃ y,
    r.cursor.atEdge = true ∧ r.cursor.after = w.toList ++ y ∧ s.cursor = r.cursor.advance w.toList.length := by
  rcases List.mem_append.1 h with h | h
  · obtain ⟨w, hw, y, hedge, hafter, -, -, rfl⟩ := mem_outcomes_headedLoop.1 h
    exact ⟨w, mem_loopKeywords_of_head hw, y, hedge, hafter, rfl⟩
  · obtain ⟨y, hedge, hafter, -, rfl⟩ := mem_outcomes_doLoop.1 h
    exact ⟨"do", by decide, y, hedge, hafter, rfl⟩

/-- What a counted loop starts with. -/
theorem exists_of_counted (h : Counted x) : ∃ ch y, x = ch :: y ∧ startsLoop ch = true ∧ Text.isWord ch = true := by
  rcases h with ⟨w, hw, y, rfl, -⟩ | ⟨y, rfl, -⟩
  · simp only [headKeywords, List.mem_cons, List.not_mem_nil, or_false] at hw
    rcases hw with rfl | rfl | rfl
    · exact ⟨'f', _, rfl, by decide⟩
    · exact ⟨'f', _, rfl, by decide⟩
    · exact ⟨'w', _, rfl, by decide⟩
  · exact ⟨'d', _, rfl, by decide⟩

/-- **Where a loop is read**: no word character is in front, and a counted loop behind. -/
theorem isSome_loop_iff : (loop.readAt? limit c).isSome = true ↔
    c.lastIs Text.isWord = false ∧ Counted c.after := by
  have hloop : ∀ s, s ∈ loop.outcomes limit ⟨c, []⟩ ↔
      s ∈ headedLoop.outcomes limit ⟨c, []⟩ ∨ s ∈ doLoop.outcomes limit ⟨c, []⟩ := fun s => List.mem_append
  rw [isSome_readAt?_iff]
  constructor
  · intro h
    obtain ⟨s, hs⟩ := h
    have hedge : c.atEdge = true := by
      obtain ⟨w, -, y, hedge, -⟩ := exists_word_of_mem_loop hs
      exact hedge
    have hcounted : Counted c.after := by
      rcases (hloop s).1 hs with hs | hs
      · obtain ⟨w, hw, y, -, hafter, hhead, hends, -⟩ := mem_outcomes_headedLoop.1 hs
        exact Or.inl ⟨w, hw, y, hafter, hhead, hends⟩
      · obtain ⟨y, -, hafter, hnext, -⟩ := mem_outcomes_doLoop.1 hs
        exact Or.inr ⟨y, hafter, hnext⟩
    obtain ⟨ch, y, hafter, -, hch⟩ := exists_of_counted hcounted
    exact ⟨lastIs_of_atEdge hedge hafter hch, hcounted⟩
  · intro h
    obtain ⟨hlast, hcounted⟩ := h
    have hedge : c.atEdge = true := by
      obtain ⟨ch, y, hafter, -, hch⟩ := exists_of_counted hcounted
      have hnext : c.nextIs Text.isWord = true := by
        rw [Cursor.nextIs, hafter]
        exact hch
      rw [Cursor.atEdge, hlast, hnext]
      rfl
    rcases hcounted with ⟨w, hw, y, hafter, hhead, hends⟩ | ⟨y, hafter, hnext⟩
    · exact ⟨_, (hloop _).2 (Or.inl (mem_outcomes_headedLoop.2 ⟨w, hw, y, hedge, hafter, hhead, hends, rfl⟩))⟩
    · exact ⟨_, (hloop _).2 (Or.inr (mem_outcomes_doLoop.2 ⟨y, hedge, hafter, hnext, rfl⟩))⟩

/-- **Inside a loop word no loop starts.** -/
theorem apart_loop (limit : Nat) : Apart limit loop := by
  intro c m hread i hi hlt
  have hs := hread
  rw [readAt?_eq, Option.map_eq_some_iff] at hs
  obtain ⟨s, hs, rfl⟩ := hs
  obtain ⟨w, hw, y, -, hafter, hstop⟩ := exists_word_of_mem_loop (List.mem_of_mem_head? hs)
  have hchain : (w.toList ++ []).IsChain fun a b => Text.isWord a = true ∨ startsLoop b = false :=
    isChain_run (List.all_eq_true.2 (isWord_of_mem_loopKeywords hw).2) (by simp)
  rw [List.append_nil] at hchain
  have hroom : w.toList.length ≤ c.after.length := by
    rw [show c.after = w.toList ++ y from hafter, List.length_append]
    omega
  have hlen : i < (c.advance w.toList.length).place - c.place := hstop ▸ hlt
  rw [c.advance_place hroom] at hlen
  exact readAt?_inside starts_of_readAt?_loop hafter hchain hi (by omega)

/-! ## Stretches of a text -/

/-- Whether a loop is read at a place. -/
def loopAt (t : Text) (i : Nat) : Bool :=
  (loop.readAt? t.length (Cursor.ofPlace t i)).isSome

/-- The number of loops that start in `v`, with `u` in front of it and `x` behind. -/
def loopsIn (u v x : Text) : Nat :=
  (List.range v.length).countP fun i => loopAt (u ++ (v ++ x)) (u.length + i)

theorem loopAt_append (u x : Text) : loopAt (u ++ x) u.length = true ↔ EndsApart u ∧ Counted x := by
  have hlast : (Cursor.ofPlace (u ++ x) u.length).lastIs Text.isWord = false ↔ EndsApart u := by
    rw [Cursor.lastIs, Cursor.ofPlace_before, List.take_left]
    unfold EndsApart
    rw [← List.head?_reverse]
    cases u.reverse <;> simp
  rw [loopAt, isSome_loop_iff, hlast, Cursor.ofPlace_after, List.drop_left]

/-- A place inside a stretch. -/
theorem loopAt_add (u x : Text) (hi : i ≤ v.length) : loopAt (u ++ (v ++ x)) (u.length + i) = true ↔
    EndsApart (u ++ v.take i) ∧ Counted (v.drop i ++ x) := by
  rw [← loopAt_append]
  have htext : u ++ v.take i ++ (v.drop i ++ x) = u ++ (v ++ x) := by
    rw [List.append_assoc, ← List.append_assoc (v.take i), List.take_append_drop]
  have hplace : (u ++ v.take i).length = u.length + i := by
    rw [List.length_append, List.length_take]
    omega
  rw [htext, hplace]

/-- The loops of two stretches, one behind the other. -/
theorem loopsIn_append (u v x : Text) : loopsIn u (v ++ x) [] = loopsIn u v x + loopsIn (u ++ v) x [] := by
  unfold loopsIn
  rw [List.length_append, List.range_add, List.countP_append, List.countP_map]
  simp only [Function.comp_def, List.append_assoc, List.append_nil, List.length_append, Nat.add_assoc]

theorem loopsIn_singleton (u x : Text) (ch : Char) :
    loopsIn u [ch] x = if loopAt (u ++ ch :: x) u.length = true then 1 else 0 := by
  simp [loopsIn, List.countP_cons]

/-- A stretch without the letters that loops start with. -/
theorem loopsIn_eq_zero (u x : Text) (h : ∀ ch ∈ v, startsLoop ch = false) : loopsIn u v x = 0 := by
  unfold loopsIn
  rw [List.countP_eq_zero]
  intro i hi hloop
  rw [List.mem_range] at hi
  obtain ⟨-, hcounted⟩ := (loopAt_add u x (Nat.le_of_lt hi)).1 hloop
  obtain ⟨ch, y, heq, hstart, -⟩ := exists_of_counted hcounted
  rw [List.drop_eq_getElem_cons hi, List.cons_append, List.cons.injEq] at heq
  rw [← heq.1, h _ (List.getElem_mem hi)] at hstart
  cases hstart

/-- **The count of a text is that of the whole text as one stretch.** -/
theorem count_eq_loopsIn (t : Text) : loop.count t = loopsIn [] t [] := by
  have hend : loopAt t t.length = false := by
    by_contra hloop
    rw [Bool.not_eq_false] at hloop
    have hcounted := (loopAt_append t []).1 (by rwa [List.append_nil])
    obtain ⟨ch, y, heq, -⟩ := exists_of_counted hcounted.2
    cases heq
  have hcount := count_eq_countP (t := t) (apart_loop t.length) (show 0 < loop.minWidth by decide)
  rw [hcount, List.range_succ, List.countP_append]
  show _ + List.countP (loopAt t) [t.length] = _
  rw [List.countP_singleton, if_neg (by simp [hend]), loopsIn]
  simp [loopAt]

/-! ## Stretches without loop words -/

/-- **A longer word that is taken for a loop word**: it starts as one does and goes on with `await`, and a bracket comes
next. -/
def Fused (x : Text) : Prop :=
  ∃ w ∈ headKeywords, ∃ z, x = w.toList ++ ("await".toList ++ z) ∧ Text.ComesNext ['('] z

/-- What the head of a loop is made of. -/
def inHead (ch : Char) : Bool :=
  Text.isWord ch || Text.isBlank ch || ch == '(' || ch == '{'

/-- A text that does not go on with the head of a loop. -/
def Closes (x : Text) : Prop :=
  ∀ ch ∈ x.head?, inHead ch = false

/-- What is made of the characters of heads ends in front of a text that closes. -/
theorem prefix_of_closes (h : z <+: v ++ x) (hx : Closes x) (hz : z.all inHead = true) : z <+: v := by
  rcases List.prefix_or_prefix_of_prefix h (List.prefix_append v x) with hzv | ⟨y, rfl⟩
  · exact hzv
  · rw [List.prefix_append_right_inj] at h
    cases y with
    | nil => simp
    | cons ch y =>
      obtain ⟨y', rfl⟩ := h
      have hno : inHead ch = false := hx ch rfl
      rw [List.all_append, List.all_cons, hno] at hz
      simp at hz

theorem inHead_of_isBlank {b : Text} (hb : ∀ ch ∈ b, Text.isBlank ch = true) : b.all inHead = true := by
  rw [List.all_eq_true]
  intro ch hch
  simp [inHead, hb ch hch]

theorem inHead_of_mem_loopKeywords {w : String} (hw : w ∈ loopKeywords) : w.toList.all inHead = true := by
  have hall : ∀ w ∈ loopKeywords, w.toList.all inHead = true := by decide
  exact hall w hw

/-- In a text free of loop words, none starts a head on which the text behind cannot go on. -/
theorem not_head_of_freeOfLoops (hfree : FreeOfLoops (u ++ v)) (hu : EndsApart u) (hx : Closes x) {w : String}
    (hw : w ∈ loopKeywords) (hz : BeginsApart z) (hne : z ≠ []) (hin : z.all inHead = true) :
    ¬ w.toList ++ z <+: v ++ x := by
  intro hpre
  have hall : (w.toList ++ z).all inHead = true := by
    rw [List.all_append, inHead_of_mem_loopKeywords hw, hin]
    rfl
  obtain ⟨y, hy⟩ := prefix_of_closes hpre hx hall
  have hapart : BeginsApart (z ++ y) := by
    intro ch hch
    rw [List.head?_append_of_ne_nil _ hne] at hch
    exact hz ch hch
  rw [List.append_assoc] at hy
  exact hfree.not_word hu hw hapart hy.symm

/-- **In a text free of loop words, the only loops counted are longer words taken for one.** -/
theorem counted_append_iff (hfree : FreeOfLoops (u ++ v)) (hu : EndsApart u) (hx : Closes x) :
    Counted (v ++ x) ↔ Fused v := by
  constructor
  · intro h
    rcases h with ⟨w, hw, y, heq, hhead, -⟩ | ⟨y, heq, b, y', hb, rfl⟩
    · have hkey := mem_loopKeywords_of_head hw
      rcases hhead with ⟨b, y', hb, rfl⟩ | ⟨b, _, hb, rfl, b', y', hb', rfl⟩
      · -- the word would be a loop word of the text
        have hpre : w.toList ++ (b ++ ['(']) <+: v ++ x := ⟨y', by rw [heq]; simp⟩
        have hin : (b ++ ['(']).all inHead = true := by simp [inHead_of_isBlank hb]; decide
        exact absurd hpre (not_head_of_freeOfLoops hfree hu hx hkey (beginsApart_blanks hb (by decide)) (by simp) hin)
      · have hpre : w.toList ++ (b ++ ("await".toList ++ (b' ++ ['(']))) <+: v ++ x := ⟨y', by rw [heq]; simp⟩
        have hin : (b ++ ("await".toList ++ (b' ++ ['(']))).all inHead = true := by
          simp [inHead_of_isBlank hb, inHead_of_isBlank hb']
          decide
        cases b with
        | nil =>
          obtain ⟨z, hz⟩ := prefix_of_closes hpre hx
            (by rw [List.all_append, inHead_of_mem_loopKeywords hkey, hin]; rfl)
          exact ⟨w, hw, b' ++ '(' :: z, by rw [← hz]; simp, b', z, hb', rfl⟩
        | cons ch b =>
          have hch : Text.isWord ch = false := Text.isWord_of_isBlank (hb ch List.mem_cons_self)
          have hapart : BeginsApart (ch :: (b ++ ("await".toList ++ (b' ++ ['('])))) := by
            intro d hd
            rw [← Option.some.inj hd]
            exact hch
          exact absurd hpre (not_head_of_freeOfLoops hfree hu hx hkey hapart (by simp) hin)
    · have hkey : "do" ∈ loopKeywords := by decide
      have hpre : "do".toList ++ (b ++ ['{']) <+: v ++ x := ⟨y', by rw [heq]; simp⟩
      have hin : (b ++ ['{']).all inHead = true := by simp [inHead_of_isBlank hb]; decide
      exact absurd hpre (not_head_of_freeOfLoops hfree hu hx hkey (beginsApart_blanks hb (by decide)) (by simp) hin)
  · intro h
    obtain ⟨w, hw, _, rfl, b, y, hb, rfl⟩ := h
    refine Or.inl ⟨w, hw, "await".toList ++ (b ++ (['('] ++ (y ++ x))), by simp, ?_, ?_⟩
    · exact Or.inr ⟨[], _, by simp, rfl, b, y ++ x, hb, rfl⟩
    · -- a do loop would end with a bracket, and not with a letter
      intro hends
      obtain ⟨b', x', z, hb', -, -, heq, -⟩ := hends
      cases b' with
      | nil => cases heq
      | cons ch b' =>
        have hch : ch = 'a' := (List.cons.inj heq).1.symm
        have hblank := hb' ch List.mem_cons_self
        rw [hch] at hblank
        exact absurd hblank (by decide)

/-- **A stretch free of loop words counts as it does alone.** -/
theorem loopsIn_plain (hv : FreeOfLoops v) (hu : EndsApart u) (hx : Closes x) : loopsIn u v x = loop.count v := by
  rw [count_eq_loopsIn]
  unfold loopsIn
  apply List.countP_congr
  intro i hi
  have hi : i ≤ v.length := Nat.le_of_lt (List.mem_range.1 hi)
  have hnil : EndsApart ([] : Text) := by decide
  have hsplit : FreeOfLoops (v.take i ++ v.drop i) := by rwa [List.take_append_drop]
  rw [loopAt_add u x hi, loopAt_add [] [] hi, endsApart_append hu, endsApart_append hnil]
  apply and_congr_right
  intro hapart
  rw [counted_append_iff hsplit hapart hx, counted_append_iff hsplit hapart (by simp [Closes])]

/-- Whether a text free of loop words counts for nothing. -/
theorem count_eq_zero_iff (hv : FreeOfLoops v) : loop.count v = 0 ↔
    ∀ u x, v = u ++ x → EndsApart u → ¬ Fused x := by
  rw [count_eq_loopsIn, loopsIn, List.countP_eq_zero]
  constructor
  · intro h u x heq hu hfused
    have hne : x ≠ [] := by
      rintro rfl
      obtain ⟨w, hw, z, hnil, -⟩ := hfused
      simpa using congrArg List.length hnil
    have hlt : u.length < v.length := by
      rw [heq, List.length_append]
      have := List.length_pos_iff.2 hne
      omega
    apply h u.length (List.mem_range.2 hlt)
    rw [loopAt_add [] [] (Nat.le_of_lt hlt), heq, List.take_left, List.drop_left]
    exact ⟨hu, (counted_append_iff (heq ▸ hv) hu (by simp [Closes])).2 hfused⟩
  · intro h i hi hloop
    have hi : i ≤ v.length := Nat.le_of_lt (List.mem_range.1 hi)
    have hsplit : FreeOfLoops (v.take i ++ v.drop i) := by rwa [List.take_append_drop]
    obtain ⟨hapart, hcounted⟩ := (loopAt_add [] [] hi).1 hloop
    apply h (v.take i) (v.drop i) (List.take_append_drop i v).symm hapart
    exact (counted_append_iff hsplit hapart (by simp [Closes])).1 hcounted

/-! ## Do loops -/

/-- **A text in which round brackets are balanced.** -/
structure RoundWord (x : Text) : Prop where
  prefixes : ∀ n ≤ x.length, (x.take n).count ')' ≤ (x.take n).count '('
  total : x.count '(' = x.count ')'

instance (x : Text) : Decidable (RoundWord x) :=
  decidable_of_iff ((∀ n ≤ x.length, (x.take n).count ')' ≤ (x.take n).count '(') ∧ x.count '(' = x.count ')')
    ⟨fun h => ⟨h.1, h.2⟩, fun h => ⟨h.1, h.2⟩⟩

/-- A do loop with a body and a condition. -/
def doWhile (body condition : Text) : Text :=
  "do \x7b".toList ++ (body ++ ("\x7d while (".toList ++ (condition ++ ");".toList)))

/-- **The end of a do loop is taken for a loop of its own exactly if its condition has brackets.** -/
theorem counted_while_iff (hx : RoundWord x) : Counted ('w' :: ("hile (".toList ++ (x ++ ");".toList))) ↔ '(' ∈ x := by
  have hspace : ∀ ch ∈ [' '], Text.isBlank ch = true := Text.isBlank_space
  have hround : Text.isBlank '(' = false := by decide
  have hwhile : Counted ('w' :: ("hile (".toList ++ (x ++ ");".toList))) ↔
      ¬ EndsDo (" (".toList ++ (x ++ ");".toList)) := by
    constructor
    · intro h
      rcases h with ⟨w, hw, y, heq, -, hends⟩ | ⟨y, heq, -⟩
      · simp only [headKeywords, List.mem_cons, List.not_mem_nil, or_false] at hw
        rcases hw with rfl | rfl | rfl
        · simp at heq
        · simp at heq
        · obtain rfl : " (".toList ++ (x ++ ");".toList) = y := by simpa using heq
          exact hends
      · simp at heq
    · intro hends
      exact Or.inl ⟨"while", by decide, _, rfl, Or.inl ⟨[' '], _, hspace, rfl⟩, hends⟩
  rw [hwhile, not_iff_comm]
  constructor
  · intro hopen
    have hclose : ')' ∉ x := by
      rw [← List.count_eq_zero, ← hx.total, List.count_eq_zero]
      exact hopen
    exact ⟨[' '], x, [';'], hspace, hopen, hclose, by simp, [], [], by simp, rfl⟩
  · intro hends hopen
    obtain ⟨b, y, z, hb, hyopen, hyclose, heq, -⟩ := hends
    obtain ⟨-, hrest⟩ := Text.eq_of_append_eq (x := [' ']) (y := '(' :: (x ++ ");".toList)) heq hspace hb
      (by simp [hround]) (by simp [hround])
    have hrest : x ++ ");".toList = y ++ ')' :: z := List.tail_eq_of_cons_eq hrest
    -- the first bracket closes, and balance leaves no room for that
    rcases List.append_eq_append_iff.1 hrest with ⟨a, rfl, -⟩ | ⟨a, rfl, ha⟩
    · exact hyopen (List.mem_append_left _ hopen)
    · cases a with
      | nil => exact hyopen (by simpa using hopen)
      | cons ch a =>
        obtain ⟨rfl, -⟩ := List.cons.inj ha
        have hprefix := hx.prefixes (y.length + 1) (by simp)
        rw [List.take_length_add_append] at hprefix
        simp [List.count_append, List.count_eq_zero.2 hyopen] at hprefix

theorem loopsIn_do (z : Text) : loopsIn [] ['d'] ("o \x7b".toList ++ z) = 1 := by
  have hread : loopAt ([] ++ 'd' :: ("o \x7b".toList ++ z)) ([] : Text).length = true := by
    rw [loopAt_append]
    exact ⟨by decide, Or.inr ⟨_, rfl, [' '], _, Text.isBlank_space, rfl⟩⟩
  rw [loopsIn_singleton, if_pos hread]

theorem loopsIn_while (hu : EndsApart u) (hx : RoundWord x) :
    loopsIn u ['w'] ("hile (".toList ++ (x ++ ");".toList)) = if '(' ∈ x then 1 else 0 := by
  have hread : loopAt (u ++ 'w' :: ("hile (".toList ++ (x ++ ");".toList))) u.length = true ↔ '(' ∈ x := by
    rw [loopAt_append, counted_while_iff hx]
    exact and_iff_right hu
  rw [loopsIn_singleton]
  simp only [hread]

/-- **The loops of a do loop**: the one at its start, those of its body and its condition, and one at its end if the
condition has brackets. -/
theorem count_doWhile (hbody : FreeOfLoops x) (hcondition : FreeOfLoops y) (hround : RoundWord y) :
    loop.count (doWhile x y) = 1 + loop.count x + loop.count y + if '(' ∈ y then 1 else 0 := by
  have hquiet : ∀ v ∈ ["o \x7b", "\x7d ", "hile (", ");"].map String.toList, ∀ u z, loopsIn u v z = 0 := by
    intro v hv u z
    apply loopsIn_eq_zero
    have hall : ∀ v ∈ ["o \x7b", "\x7d ", "hile (", ");"].map String.toList, v.all (!startsLoop ·) = true := by decide
    intro ch hch
    simpa using List.all_eq_true.1 (hall v hv) ch hch
  have hapart : ∀ v ∈ ["o \x7b", "\x7d ", "hile ("].map String.toList, ∀ u : Text, EndsApart (u ++ v) := by
    intro v hv u
    have hall : ∀ v ∈ ["o \x7b", "\x7d ", "hile ("].map String.toList, v ≠ [] ∧ EndsApart v := by decide
    obtain ⟨hne, hends⟩ := hall v hv
    intro ch hch
    rw [List.getLast?_append_of_ne_nil _ hne] at hch
    exact hends ch hch
  have hbrace : ∀ z, Closes ("\x7d ".toList ++ z) := by
    intro z ch hch
    obtain rfl : '}' = ch := Option.some.inj hch
    decide
  have hbracket : Closes ");".toList := by
    intro ch hch
    obtain rfl : ')' = ch := Option.some.inj hch
    decide
  have htext : doWhile x y = ['d'] ++ ("o \x7b".toList ++ (x ++ ("\x7d ".toList ++ (['w'] ++ ("hile (".toList
      ++ (y ++ ");".toList)))))) := rfl
  rw [count_eq_loopsIn, htext, loopsIn_append, loopsIn_append, loopsIn_append, loopsIn_append, loopsIn_append,
    loopsIn_append, loopsIn_append]
  rw [loopsIn_do, loopsIn_plain hbody (hapart _ (by decide) _) (hbrace _),
    loopsIn_while (hapart _ (by decide) _) hround, loopsIn_plain hcondition (hapart _ (by decide) _) hbracket,
    hquiet "o \x7b".toList (by decide), hquiet "\x7d ".toList (by decide), hquiet "hile (".toList (by decide),
    hquiet ");".toList (by decide)]
  omega

/-- A text without brackets counts for nothing if it is free of loop words. -/
theorem count_eq_zero_of_free (hx : FreeOfLoops x) (hopen : '(' ∉ x) : loop.count x = 0 := by
  rw [count_eq_zero_iff hx]
  intro u v heq _ hfused
  obtain ⟨w, -, _, rfl, b, y, -, rfl⟩ := hfused
  apply hopen
  rw [heq]
  simp

end Grammar.Braced

namespace DecisionPoints

open Grammar.Braced

variable {language : Language} {body condition : Text}

theorem loops_eq_count (h : language.usesBraces = true) (t : Text) :
    (ofText language.grammar.decisions t).loops = loop.count t := by
  cases language
  case python => cases h
  all_goals rfl

/-- **How often a do loop is counted.** Its body and its condition being free of loop words, it counts once at its
start, once more if its condition has brackets, and once for each longer word that is taken for a loop word. So it
counts once exactly if the condition has no brackets and the body has no such word. -/
theorem loops_doWhile (h : language.usesBraces = true) (hbody : FreeOfLoops body) (hcondition : FreeOfLoops condition)
    (hround : RoundWord condition) :
    let loops := fun t => (ofText language.grammar.decisions t).loops
    (loops (doWhile body condition) = 1 + loops body + loops condition + if '(' ∈ condition then 1 else 0) ∧
      (loops (doWhile body condition) = 1 ↔
        '(' ∉ condition ∧ ∀ u x, body = u ++ x → EndsApart u → ¬ Fused x) := by
  intro loops
  have hloops : ∀ t, loops t = loop.count t := loops_eq_count h
  have hcount := count_doWhile hbody hcondition hround
  rw [hloops, hloops, hloops, ← count_eq_zero_iff hbody]
  refine ⟨hcount, ?_⟩
  by_cases hopen : '(' ∈ condition
  · rw [if_pos hopen] at hcount
    constructor
    · intro hone
      omega
    · intro hnone
      exact absurd hopen hnone.1
  · have hnone := count_eq_zero_of_free hcondition hopen
    rw [if_neg hopen, hnone] at hcount
    constructor
    · intro hone
      exact ⟨hopen, by omega⟩
    · intro hzero
      omega

/-- A loop with a plain condition, and with words around it that only look like loop words. -/
theorem loops_doWhile_once :
    FreeOfLoops "redo(); forward(x); while_1 = 2; x--;".toList ∧ FreeOfLoops "x > 0 && done".toList ∧
      RoundWord "x > 0 && done".toList ∧
      (ofText Language.java.grammar.decisions
        (doWhile "redo(); forward(x); while_1 = 2; x--;".toList "x > 0 && done".toList)).loops = 1 := by
  have hbody : FreeOfLoops "redo(); forward(x); while_1 = 2; x--;".toList := by decide +kernel
  have hcondition : FreeOfLoops "x > 0 && done".toList := by decide +kernel
  have hround : RoundWord "x > 0 && done".toList := by decide +kernel
  have hloops := (loops_doWhile (show Language.usesBraces .java = true from rfl) hbody hcondition hround).1
  exact ⟨hbody, hcondition, hround, hloops.trans (by decide +kernel)⟩

/-- **A do loop whose condition calls something is counted twice.** -/
theorem loops_doWhile_call :
    FreeOfLoops [] ∧ FreeOfLoops "f(x)".toList ∧ RoundWord "f(x)".toList ∧
      (ofText Language.javascript.grammar.decisions (doWhile [] "f(x)".toList)).loops = 2 := by
  decide +kernel

end DecisionPoints

end CodeSurvey
