import CodeSurvey.Proofs.Performance.LoopNesting

/-!
# Loops in loops, told by what stands behind a place

Loop words that stand directly in one another's blocks are told by places of a text. Told by the text that stands
behind a place they are told without numbers, and a text can be taken apart where no word runs across.

* `OpensLoop`: a loop word stands in front of a text.
* `LoopChain`: a loop word, with so many others directly in one another's blocks.
* `Found`, `found_append_cons`: a chain starts somewhere, on this side of a character or on that.
* `exists_nestedLoops_iff`: these are the nested loops that tell the growth of time.
-/

namespace CodeSurvey

open Pattern
open Text (EndsApart BeginsApart endsApart_append_cons endsApart_of_append loopKeywords
  isWord_of_mem_loopKeywords)

namespace BracedLoop

variable {t u v x y z q r a b : Text} {i j e n : Nat} {c : Char}

/-! ## What stands behind a place -/

/-- A text without braces. -/
def NoBraces (x : Text) : Prop :=
  '{' ∉ x ∧ '}' ∉ x

instance (x : Text) : Decidable (NoBraces x) :=
  inferInstanceAs (Decidable (_ ∧ _))

/-- A loop word stands in front, and `r` behind it. -/
def OpensLoop (x r : Text) : Prop :=
  ∃ w ∈ loopKeywords, x = w.toList ++ r ∧ BeginsApart r

/-- **A loop word stands in front, with so many others in its block**, each directly in the one before. -/
def LoopChain : Nat → Text → Prop
  | 0, x => ∃ r, OpensLoop x r
  | n + 1, x => ∃ head z, OpensLoop x (head ++ '{' :: z) ∧ '{' ∉ head ∧
      ∃ gap y, z = gap ++ y ∧ NoBraces gap ∧ EndsApart gap ∧ LoopChain n y

/-- A chain of loops is reached without a brace in front of it. -/
def Reaches (n : Nat) (z : Text) : Prop :=
  ∃ gap y, z = gap ++ y ∧ NoBraces gap ∧ EndsApart gap ∧ LoopChain n y

/-- A chain of loops starts somewhere in a text. -/
def Found (n : Nat) (t : Text) : Prop :=
  ∃ u x, t = u ++ x ∧ EndsApart u ∧ LoopChain n x

theorem loopChain_succ : LoopChain (n + 1) x ↔
    ∃ head z, OpensLoop x (head ++ '{' :: z) ∧ '{' ∉ head ∧ Reaches n z := Iff.rfl

/-- The loop word in front of a text, and what is behind it, are told by the text. -/
theorem OpensLoop.rest_eq (h : OpensLoop x r) : r = x.dropWhile Text.isWord := by
  obtain ⟨w, hw, rfl, hr⟩ := h
  rw [List.dropWhile_append_of_pos (isWord_of_mem_loopKeywords hw).2]
  cases r with
  | nil => rfl
  | cons ch r =>
    have hch : Text.isWord ch = false := hr ch rfl
    rw [List.dropWhile_cons_of_neg (by simp [hch])]

theorem not_opensLoop (h : BeginsApart x) : ¬ OpensLoop x r := by
  rintro ⟨w, hw, rfl, -⟩
  obtain ⟨hne, hword⟩ := isWord_of_mem_loopKeywords hw
  obtain ⟨ch, w, heq⟩ := List.exists_cons_of_ne_nil hne
  rw [heq] at h hword
  have hch : Text.isWord ch = false := h ch rfl
  rw [hword ch List.mem_cons_self] at hch
  cases hch

theorem LoopChain.opens (h : LoopChain n x) : ∃ r, OpensLoop x r := by
  cases n with
  | zero => exact h
  | succ n =>
    obtain ⟨head, z, hopens, -⟩ := loopChain_succ.1 h
    exact ⟨_, hopens⟩

theorem not_loopChain (h : BeginsApart x) : ¬ LoopChain n x := by
  intro hchain
  obtain ⟨r, hopens⟩ := hchain.opens
  exact not_opensLoop h hopens

/-- **A chain in a text starts in front of a character that is no word character, or behind it.** -/
theorem found_append_cons (hc : Text.isWord c = false) : Found n (a ++ c :: b) ↔
    (∃ u v, a = u ++ v ∧ EndsApart u ∧ LoopChain n (v ++ c :: b)) ∨ Found n b := by
  constructor
  · rintro ⟨u, x, heq, hu, hchain⟩
    rcases List.append_eq_append_iff.1 heq with ⟨v, rfl, hv⟩ | ⟨v, rfl, rfl⟩
    · cases v with
      | nil =>
        rw [List.nil_append] at hv
        rw [← hv] at hchain
        exact Or.inl ⟨a, [], by simp, by simpa using hu, hchain⟩
      | cons d v =>
        obtain ⟨rfl, rfl⟩ : c = d ∧ b = v ++ x := by simpa using hv
        exact Or.inr ⟨v, x, rfl, (endsApart_append_cons hc).1 hu, hchain⟩
    · exact Or.inl ⟨u, v, rfl, hu, hchain⟩
  · rintro (⟨u, v, rfl, hu, hchain⟩ | ⟨u, x, rfl, hu, hchain⟩)
    · exact ⟨u, _, by rw [List.append_assoc], hu, hchain⟩
    · exact ⟨a ++ c :: u, x, by simp, (endsApart_append_cons hc).2 hu, hchain⟩

theorem found_cons (hc : Text.isWord c = false) : Found n (c :: b) ↔ Found n b := by
  rw [← List.nil_append (c :: b), found_append_cons hc]
  refine ⟨fun h => h.resolve_left ?_, Or.inr⟩
  rintro ⟨u, v, heq, -, hchain⟩
  obtain ⟨-, rfl⟩ := List.append_eq_nil_iff.1 heq.symm
  refine not_loopChain (fun ch hch => ?_) hchain
  rwa [← Option.some.inj hch]

/-! ## Chains by places -/

theorem drop_eq_append {i : Nat} {w : Text} : w <+: t.drop i ↔ t.drop i = w ++ t.drop (i + w.length) := by
  rw [List.prefix_iff_eq_append, List.drop_drop, eq_comm]

theorem endsApart_take_iff (hi : i ≤ t.length) : EndsApart (t.take i) ↔
    ∀ k ch, i = k + 1 → t[k]? = some ch → Text.isWord ch = false := by
  unfold EndsApart
  rw [List.getLast?_take]
  cases i with
  | zero => simp
  | succ k =>
    rw [if_neg (Nat.succ_ne_zero k), Nat.add_sub_cancel, List.getElem?_eq_getElem hi]
    constructor
    · rintro h k' ch hk hch
      obtain rfl : k = k' := by omega
      exact h ch (by simpa [List.getElem?_eq_getElem hi] using hch)
    · intro h ch hch
      exact h k ch rfl (by simpa [List.getElem?_eq_getElem hi] using hch)

theorem beginsApart_drop_iff : BeginsApart (t.drop e) ↔ ∀ ch, t[e]? = some ch → Text.isWord ch = false := by
  rw [BeginsApart, List.head?_drop]
  rfl

theorem loopWordAt_iff : LoopWordAt t i e ↔ EndsApart (t.take i) ∧
    ∃ w ∈ loopKeywords, e = i + w.toList.length ∧ t.drop i = w.toList ++ t.drop e ∧ BeginsApart (t.drop e) := by
  constructor
  · intro h
    have hlt := h.lt
    have hle := h.le_length
    obtain ⟨w, hw, rfl, hslice⟩ := h.word
    refine ⟨(endsApart_take_iff (by omega)).2 h.before, w, hw, rfl, ?_, beginsApart_drop_iff.2 h.behind⟩
    exact drop_eq_append.1 (prefix_drop_iff.2 hslice)
  · rintro ⟨hbefore, w, hw, rfl, hdrop, hbehind⟩
    have hi : i ≤ t.length := by
      have hpos := List.length_pos_iff.2 (isWord_of_mem_loopKeywords hw).1
      have hlen := congrArg List.length hdrop
      rw [List.length_append, List.length_drop] at hlen
      omega
    exact ⟨⟨w, hw, rfl, prefix_drop_iff.1 (drop_eq_append.2 hdrop)⟩, (endsApart_take_iff hi).1 hbefore,
      beginsApart_drop_iff.1 hbehind⟩

theorem directlyIn_iff : DirectlyIn t e j ∧ j ≤ t.length ↔
    ∃ head gap, t.drop e = head ++ '{' :: (gap ++ t.drop j) ∧ j = e + head.length + 1 + gap.length ∧
      '{' ∉ head ∧ NoBraces gap := by
  constructor
  · rintro ⟨⟨p, hep, hpj, hp, hhead, hgap⟩, hj⟩
    have hlt : p < t.length := (List.getElem?_eq_some_iff.1 hp).1
    have hbrace : t.drop p = '{' :: t.drop (p + 1) := by
      rw [List.drop_eq_getElem_cons hlt, (List.getElem?_eq_some_iff.1 hp).2]
    refine ⟨Text.slice t e p, Text.slice t (p + 1) j, ?_, ?_, fun h => hhead _ h rfl,
      fun h => (hgap _ h).1 rfl, fun h => (hgap _ h).2 rfl⟩
    · rw [Text.slice_append_drop hpj, ← hbrace, Text.slice_append_drop hep]
    · rw [Text.length_slice (by omega), Text.length_slice hj]
      omega
  · rintro ⟨head, gap, hdrop, hj, hhead, hgap⟩
    have hlen := congrArg List.length hdrop
    simp only [List.length_drop, List.length_append, List.length_cons] at hlen
    -- the brace stands behind the head
    have hbehind : t.drop (e + head.length) = '{' :: (gap ++ t.drop j) := by
      rw [← List.drop_drop, hdrop, List.drop_left]
    have hinside : t.drop (e + head.length + 1) = gap ++ t.drop j := by
      rw [← List.drop_drop, hbehind, List.drop_one, List.tail_cons]
    have hslice : Text.slice t e (e + head.length) = head := by
      rw [Text.slice, Nat.add_sub_cancel_left, hdrop, List.take_left]
    have hslice' : Text.slice t (e + head.length + 1) j = gap := by
      rw [Text.slice, hinside, hj, Nat.add_sub_cancel_left, List.take_left]
    refine ⟨⟨e + head.length, by omega, by omega, ?_, ?_, ?_⟩, by omega⟩
    · rw [← List.head?_drop, hbehind, List.head?_cons]
    · rw [hslice]
      rintro ch hch rfl
      exact hhead hch
    · rw [hslice']
      exact fun ch hch => ⟨fun h => hgap.1 (h ▸ hch), fun h => hgap.2 (h ▸ hch)⟩

theorem take_eq_of_drop (h : t.drop e = x ++ t.drop j) : t.take j = t.take e ++ x := by
  have hwhole : t.take j ++ t.drop j = (t.take e ++ x) ++ t.drop j := by
    rw [List.append_assoc, ← h, List.take_append_drop, List.take_append_drop]
  exact List.append_cancel_right hwhole

/-- **Nested loops at a place are a chain behind it.** -/
theorem exists_nestedLoops_at_iff (n : Nat) : ∀ {i : Nat}, (∃ e l, l.length = n ∧ NestedLoops t ((i, e) :: l)) ↔
    EndsApart (t.take i) ∧ LoopChain n (t.drop i) := by
  induction n with
  | zero =>
    intro i
    constructor
    · rintro ⟨e, l, hl, h⟩
      rw [List.length_eq_zero_iff.1 hl, nestedLoops_singleton, loopWordAt_iff] at h
      obtain ⟨hbefore, w, hw, -, hdrop, hbehind⟩ := h
      exact ⟨hbefore, _, w, hw, hdrop, hbehind⟩
    · rintro ⟨hbefore, r, w, hw, hdrop, hbehind⟩
      obtain rfl : r = t.drop (i + w.toList.length) := by
        rw [← List.drop_drop, hdrop, List.drop_left]
      exact ⟨_, [], rfl, nestedLoops_singleton.2 (loopWordAt_iff.2 ⟨hbefore, w, hw, rfl, hdrop, hbehind⟩)⟩
  | succ n ih =>
    intro i
    have hbrace : Text.isWord '{' = false := by decide
    constructor
    · rintro ⟨e, l, hl, h⟩
      cases l with
      | nil => cases hl
      | cons next l =>
        obtain ⟨j, f⟩ := next
        obtain ⟨hword, hin, hrest⟩ := nestedLoops_cons_cons.1 h
        have hnext := hrest.words _ List.mem_cons_self
        have hj : j ≤ t.length := Nat.le_of_lt (Nat.lt_of_lt_of_le hnext.lt hnext.le_length)
        obtain ⟨hbefore, w, hw, -, hdrop, hbehind⟩ := loopWordAt_iff.1 hword
        obtain ⟨head, gap, hblock, -, hhead, hgap⟩ := directlyIn_iff.1 ⟨hin, hj⟩
        obtain ⟨hapart, hchain⟩ := ih.1 ⟨f, l, by simpa using hl, hrest⟩
        -- what is in front of the inner word ends in the gap behind the brace
        rw [take_eq_of_drop (x := head ++ '{' :: gap) (by simpa using hblock), ← List.append_assoc,
          endsApart_append_cons hbrace] at hapart
        rw [hblock] at hdrop hbehind
        exact ⟨hbefore, head, _, ⟨w, hw, hdrop, hbehind⟩, hhead, gap, _, rfl, hgap, hapart, hchain⟩
    · rintro ⟨hbefore, head, z, ⟨w, hw, hdrop, hbehind⟩, hhead, gap, y, rfl, hgap, hapart, hchain⟩
      have hblock : t.drop (i + w.toList.length) = head ++ '{' :: (gap ++ y) := by
        rw [← List.drop_drop, hdrop, List.drop_left]
      have hinner : t.drop (i + w.toList.length + head.length + 1 + gap.length) = y := by
        have hparts : head ++ '{' :: (gap ++ y) = (head ++ '{' :: gap) ++ y := by simp
        have hlen : head.length + 1 + gap.length = (head ++ '{' :: gap).length := by simp; omega
        rw [Nat.add_assoc (_ + _), Nat.add_assoc (_ + _), ← List.drop_drop, hblock, hparts, ← Nat.add_assoc, hlen,
          List.drop_left]
      -- from here on the inner word is told by its place
      rw [← hinner] at hblock hchain hdrop hbehind
      rw [← hblock] at hdrop hbehind
      have hbefore' : EndsApart (t.take (i + w.toList.length + head.length + 1 + gap.length)) := by
        rw [take_eq_of_drop (x := head ++ '{' :: gap) (by simpa using hblock), ← List.append_assoc,
          endsApart_append_cons hbrace]
        exact hapart
      obtain ⟨f, l, hl, hrest⟩ := ih.2 ⟨hbefore', hchain⟩
      have hword := loopWordAt_iff.2 ⟨hbefore, w, hw, rfl, hdrop, hbehind⟩
      have hin := (directlyIn_iff.2 ⟨head, gap, hblock, rfl, hhead, hgap⟩).1
      exact ⟨_, _ :: l, by simp [hl], nestedLoops_cons_cons.2 ⟨hword, hin, hrest⟩⟩

theorem exists_nestedLoops_iff : (∃ l, l.length = n + 1 ∧ NestedLoops t l) ↔ Found n t := by
  constructor
  · rintro ⟨l, hl, h⟩
    cases l with
    | nil => cases hl
    | cons first l =>
      obtain ⟨hbefore, hchain⟩ := (exists_nestedLoops_at_iff n).1 ⟨first.2, l, by simpa using hl, h⟩
      exact ⟨_, _, (List.take_append_drop _ t).symm, hbefore, hchain⟩
  · rintro ⟨u, x, rfl, hu, hchain⟩
    have hat : EndsApart ((u ++ x).take u.length) ∧ LoopChain n ((u ++ x).drop u.length) := by
      rw [List.take_left, List.drop_left]
      exact ⟨hu, hchain⟩
    obtain ⟨e, l, hl, h⟩ := (exists_nestedLoops_at_iff n).2 hat
    exact ⟨_, by simp [hl], h⟩

end BracedLoop

end CodeSurvey
