import Mathlib.Order.Interval.Finset.Nat
import CodeSurvey.Proofs.Refactoring.Window

/-!
# Which duplicates are reported

The windows of a text are grouped by their text. The groups with more than one window are candidates; they are taken
from the highest to the lowest, and one is dropped if its first window shares a line with a window of a candidate taken
before.

* `mem_groups_iff`, `mem_candidates_iff`: a group holds all the windows with one text.
* `apart_of_mem_choose`, `choose_apart`: what is chosen shares no line with what was covered before.
* `chosen_or_covered`: what is not chosen shares a line with something chosen that is at least as high.
* `ofText_reported`: every reported duplicate is real, rightly counted and apart from the others.
* `ofText_complete`: nothing that occurs twice is missed.
-/

namespace CodeSurvey.Duplicate

variable {t x : Text} {minLength : Int} {w : Window} {l covered g : List Window} {c : Candidate} {cs : List Candidate}
  {d : Duplicate}

/-! ## Groups and candidates -/

/-- All windows of a group have the text of its first one. -/
theorem head_filter_text (hw : w ∈ l) (x : Text) :
    (l.filter (·.text == w.text)).head?.any (·.text == x) = (w.text == x) := by
  have hmem : w ∈ l.filter (·.text == w.text) := List.mem_filter.2 ⟨hw, by simp⟩
  obtain ⟨v, rest, hlist⟩ := List.exists_cons_of_ne_nil (List.ne_nil_of_mem hmem)
  have hv : v ∈ l.filter (·.text == w.text) := by
    rw [hlist]
    exact List.mem_cons_self
  rw [List.mem_filter, beq_iff_eq] at hv
  rw [hlist, List.head?_cons, Option.any_some, hv.2]

/-- **What one window does to the groups**: it leads the group of its text, and the groups of other texts stay as they
are. -/
theorem mem_groups_cons_iff {rest : List Window}
    (hrest : ∀ g, g ∈ groups rest ↔ ∃ v ∈ rest, g = rest.filter (·.text == v.text)) :
    g ∈ groups (w :: rest) ↔ g = w :: rest.filter (·.text == w.text) ∨
      ∃ v ∈ rest, v.text ≠ w.text ∧ g = rest.filter (·.text == v.text) := by
  rw [groups]
  cases hfind : (groups rest).find? (fun g => g.head?.any (·.text == w.text)) with
  | none =>
    rw [List.find?_eq_none] at hfind
    have hnew : ∀ v ∈ rest, v.text ≠ w.text := by
      intro v hv heq
      refine hfind _ ((hrest _).2 ⟨v, hv, rfl⟩) ?_
      rw [head_filter_text hv, heq]
      exact beq_self_eq_true _
    have hnone : rest.filter (·.text == w.text) = [] := by
      rw [List.filter_eq_nil_iff]
      intro v hv
      simpa using hnew v hv
    simp only [List.mem_cons, hnone, hrest]
    refine or_congr_right ⟨?_, ?_⟩
    · intro h
      obtain ⟨v, hv, hg⟩ := h
      exact ⟨v, hv, hnew v hv, hg⟩
    · intro h
      obtain ⟨v, hv, -, hg⟩ := h
      exact ⟨v, hv, hg⟩
  | some g' =>
    obtain ⟨v, hv, rfl⟩ := (hrest g').1 (List.mem_of_find?_eq_some hfind)
    have heq : v.text = w.text := by
      have hsome := List.find?_some hfind
      rw [head_filter_text hv] at hsome
      simpa using hsome
    simp only [List.mem_cons, heq, List.mem_filter, hrest]
    refine or_congr_right ⟨?_, ?_⟩
    · intro h
      obtain ⟨⟨u, hu, rfl⟩, hne⟩ := h
      rw [head_filter_text hu] at hne
      exact ⟨u, hu, by simpa using hne, rfl⟩
    · intro h
      obtain ⟨u, hu, hne, rfl⟩ := h
      refine ⟨⟨u, hu, rfl⟩, ?_⟩
      rw [head_filter_text hu]
      simpa using hne

/-- **A group holds all the windows with one text**, in their order. -/
theorem mem_groups_iff : g ∈ groups l ↔ ∃ w ∈ l, g = l.filter (·.text == w.text) := by
  induction l generalizing g with
  | nil => simp [groups]
  | cons w rest ih =>
    have hother : ∀ v : Window, v.text ≠ w.text →
        (w :: rest).filter (·.text == v.text) = rest.filter (·.text == v.text) := by
      intro v hv
      exact List.filter_cons_of_neg (by simpa using Ne.symm hv)
    have hown : (w :: rest).filter (·.text == w.text) = w :: rest.filter (·.text == w.text) :=
      List.filter_cons_of_pos (by simp)
    rw [mem_groups_cons_iff fun _ => ih]
    constructor
    · intro h
      rcases h with rfl | ⟨v, hv, hne, rfl⟩
      · exact ⟨w, List.mem_cons_self, hown.symm⟩
      · exact ⟨v, List.mem_cons_of_mem _ hv, (hother v hne).symm⟩
    · intro h
      obtain ⟨v, hv, rfl⟩ := h
      by_cases heq : v.text = w.text
      · rw [heq, hown]
        exact Or.inl rfl
      · refine Or.inr ⟨v, ?_, heq, hother v heq⟩
        rcases List.mem_cons.1 hv with rfl | hv
        · exact absurd rfl heq
        · exact hv

/-- The windows of a candidate. -/
def Candidate.windows (c : Candidate) : List Window :=
  c.lead :: c.others

/-- **A candidate holds all the windows with one text**, and more than one. -/
theorem mem_candidates_iff : c ∈ candidates l ↔
    c.others ≠ [] ∧ c.windows = l.filter (·.text == c.lead.text) := by
  have hlead : ∀ {v : Window} {rest : List Window}, (∃ w ∈ l, v :: rest = l.filter (·.text == w.text)) ↔
      v :: rest = l.filter (·.text == v.text) := by
    intro v rest
    constructor
    · rintro ⟨w, hw, heq⟩
      have hv : v ∈ l.filter (·.text == w.text) := heq ▸ List.mem_cons_self
      rw [List.mem_filter, beq_iff_eq] at hv
      rw [heq, hv.2]
    · intro heq
      have hv : v ∈ l.filter (·.text == v.text) := heq ▸ List.mem_cons_self
      exact ⟨v, (List.mem_filter.1 hv).1, heq⟩
  rw [candidates, List.mem_filterMap]
  constructor
  · intro h
    obtain ⟨g, hg, hc⟩ := h
    rw [mem_groups_iff] at hg
    match g, hc with
    | v :: second :: more, hc =>
      obtain rfl : (⟨v, second :: more⟩ : Candidate) = c := Option.some.inj hc
      exact ⟨List.cons_ne_nil _ _, hlead.1 hg⟩
  · intro h
    obtain ⟨hne, hwindows⟩ := h
    obtain ⟨second, more, hothers⟩ := List.exists_cons_of_ne_nil hne
    refine ⟨c.windows, mem_groups_iff.2 (hlead.2 hwindows), ?_⟩
    rw [Candidate.windows, hothers]
    simp only [← hothers]

/-! ## The choice -/

/-- What is reported for a candidate. -/
def Candidate.duplicate (c : Candidate) : Duplicate :=
  ⟨c.lead.text, c.others.length + 1, c.lead.first, c.lead.last⟩

/-- One step of the choice: a candidate whose first window is covered is passed over, any other is taken. -/
theorem choose_cons (covered : List Window) (c : Candidate) (cs : List Candidate) :
    (∃ w ∈ covered, touches w c.lead = true) ∧ choose covered (c :: cs) = choose covered cs ∨
      (∀ w ∈ covered, touches w c.lead = false) ∧
        choose covered (c :: cs) = c.duplicate :: choose (covered ++ c.windows) cs := by
  by_cases h : ∃ w ∈ covered, touches w c.lead = true
  · exact Or.inl ⟨h, if_pos (List.any_eq_true.2 h)⟩
  · refine Or.inr ⟨?_, if_neg (mt List.any_eq_true.1 h)⟩
    intro w hw
    by_contra htouch
    exact h ⟨w, hw, by simpa using htouch⟩

/-- **What is chosen is a candidate**, and its first window is not covered. -/
theorem apart_of_mem_choose (h : d ∈ choose covered cs) :
    ∃ c ∈ cs, d = c.duplicate ∧ ∀ w ∈ covered, touches w c.lead = false := by
  induction cs generalizing covered with
  | nil => cases h
  | cons a rest ih =>
    rcases choose_cons covered a rest with ⟨-, hstep⟩ | ⟨hfree, hstep⟩ <;> rw [hstep] at h
    · obtain ⟨c, hc, hd, hfree⟩ := ih h
      exact ⟨c, List.mem_cons_of_mem _ hc, hd, hfree⟩
    · rcases List.mem_cons.1 h with rfl | h
      · exact ⟨a, List.mem_cons_self, rfl, hfree⟩
      · obtain ⟨c, hc, hd, hfree⟩ := ih h
        exact ⟨c, List.mem_cons_of_mem _ hc, hd, fun w hw => hfree w (List.mem_append_left _ hw)⟩

/-- Two duplicates that share no line. -/
def Apart (a b : Duplicate) : Prop :=
  a.last < b.first ∨ b.last < a.first

theorem choose_apart (covered : List Window) (cs : List Candidate) : (choose covered cs).Pairwise Apart := by
  induction cs generalizing covered with
  | nil => exact List.Pairwise.nil
  | cons a rest ih =>
    rcases choose_cons covered a rest with ⟨-, hstep⟩ | ⟨-, hstep⟩ <;> rw [hstep]
    · exact ih covered
    · refine List.pairwise_cons.2 ⟨?_, ih _⟩
      intro d hd
      obtain ⟨c, -, rfl, hfree⟩ := apart_of_mem_choose hd
      have hlead : touches a.lead c.lead = false :=
        hfree a.lead (List.mem_append_right _ List.mem_cons_self)
      simp only [touches, Bool.and_eq_false_iff, decide_eq_false_iff_not, Nat.not_le] at hlead
      exact hlead.symm

/-- **Every candidate is chosen or covered.** If the candidates come from the highest to the lowest, then the first
window of one that is not chosen shares a line with what was covered from the start, or with a window of a chosen
candidate that is at least as high. -/
theorem chosen_or_covered (covered : List Window) (hsorted : cs.Pairwise fun a b => b.height ≤ a.height)
    (hc : c ∈ cs) :
    c.duplicate ∈ choose covered cs ∨ (∃ w ∈ covered, touches w c.lead = true) ∨
      ∃ c' ∈ cs, c'.duplicate ∈ choose covered cs ∧ c.height ≤ c'.height ∧
        ∃ w ∈ c'.windows, touches w c.lead = true := by
  -- along the candidates; the cover grows by the windows of what is taken
  induction cs generalizing covered with
  | nil => cases hc
  | cons a rest ih =>
    obtain ⟨hhigher, hsorted⟩ := List.pairwise_cons.1 hsorted
    rcases choose_cons covered a rest with ⟨hcovered, hstep⟩ | ⟨-, hstep⟩ <;> rw [hstep]
    · rcases List.mem_cons.1 hc with rfl | hc
      · exact Or.inr (Or.inl hcovered)
      · rcases ih covered hsorted hc with hchosen | hcover | ⟨c', hc', hchosen, hheight, hshare⟩
        · exact Or.inl hchosen
        · exact Or.inr (Or.inl hcover)
        · exact Or.inr (Or.inr ⟨c', List.mem_cons_of_mem _ hc', hchosen, hheight, hshare⟩)
    · rcases List.mem_cons.1 hc with rfl | hc
      · exact Or.inl List.mem_cons_self
      · rcases ih _ hsorted hc with hchosen | ⟨w, hw, htouch⟩ | ⟨c', hc', hchosen, hheight, hshare⟩
        · exact Or.inl (List.mem_cons_of_mem _ hchosen)
        · rcases List.mem_append.1 hw with hw | hw
          · exact Or.inr (Or.inl ⟨w, hw, htouch⟩)
          · exact Or.inr (Or.inr ⟨a, List.mem_cons_self, List.mem_cons_self, hhigher c hc, w, hw, htouch⟩)
        · exact Or.inr (Or.inr
            ⟨c', List.mem_cons_of_mem _ hc', List.mem_cons_of_mem _ hchosen, hheight, hshare⟩)

theorem sorted_candidates (l : List Candidate) :
    (l.mergeSort Candidate.le).Pairwise fun a b => b.height ≤ a.height := by
  have hle : ∀ a b : Candidate, Candidate.le a b = true ↔
      b.height < a.height ∨ a.height = b.height ∧ a.lead.first ≤ b.lead.first := by
    intro a b
    simp [Candidate.le]
  refine (List.pairwise_mergeSort ?_ ?_ l).imp ?_
  · intro a b c hab hbc
    rw [hle] at hab hbc ⊢
    omega
  · intro a b
    rw [Bool.or_eq_true, hle, hle]
    omega
  · intro a b hab
    rw [hle] at hab
    omega

/-! ## Reports -/

/-- **What is reported of a text**: a window that is long enough and occurs more than once, at the first place where it
occurs, with the number of its occurrences. -/
structure Reported (minLength : Int) (t : Text) (d : Duplicate) : Prop where
  window : IsWindow t d.first d.last
  text_eq : d.text = windowText t d.first d.last
  long : minLength ≤ d.text.length
  twice : 2 ≤ d.count
  count_eq : d.count = (occurrences t d.text).card
  height_eq : ∀ s ∈ occurrences t d.text, s.2 - s.1 = d.last - d.first
  first_le : ∀ s ∈ occurrences t d.text, d.first ≤ s.1

/-- The windows of a candidate are the occurrences of its text. -/
theorem mem_occurrences_of_candidate (hc : c ∈ candidates (windows minLength t)) {s : Nat × Nat} :
    s ∈ occurrences t c.lead.text ↔ ∃ w ∈ c.windows, s = (w.first, w.last) := by
  obtain ⟨-, hwindows⟩ := mem_candidates_iff.1 hc
  have hlead : c.lead ∈ (windows minLength t).filter (·.text == c.lead.text) := hwindows ▸ List.mem_cons_self
  have hlong := (mem_windows_iff.1 (List.mem_filter.1 hlead).1).2.2
  rw [mem_occurrences_iff]
  simp only [hwindows, List.mem_filter, mem_windows_iff, beq_iff_eq]
  constructor
  · intro h
    obtain ⟨hwindow, htext⟩ := h
    exact ⟨⟨c.lead.text, s.1, s.2⟩, ⟨⟨hwindow, htext.symm, hlong⟩, rfl⟩, rfl⟩
  · rintro ⟨w, ⟨⟨hwindow, htext, -⟩, hw⟩, rfl⟩
    exact ⟨hwindow, htext.symm.trans hw⟩

/-- **A candidate can be reported.** -/
theorem reported_of_candidate (hc : c ∈ candidates (windows minLength t)) : Reported minLength t c.duplicate := by
  obtain ⟨hne, hwindows⟩ := mem_candidates_iff.1 hc
  have hlead : c.lead ∈ (windows minLength t).filter (·.text == c.lead.text) := hwindows ▸ List.mem_cons_self
  obtain ⟨hwindow, htext, hlong⟩ := mem_windows_iff.1 (List.mem_filter.1 hlead).1
  refine ⟨hwindow, htext, hlong, ?_, ?_, ?_, ?_⟩
  · have hpos := List.length_pos_iff.2 hne
    show 2 ≤ c.others.length + 1
    omega
  · have hcount := length_filter_windows (t := t) hlong
    rw [← hwindows] at hcount
    exact hcount
  · intro s hs
    obtain ⟨hs, heq⟩ := mem_occurrences_iff.1 hs
    exact Duplicate.height_eq hs hwindow (heq.trans htext)
  · intro s hs
    obtain ⟨w, hw, rfl⟩ := (mem_occurrences_of_candidate hc).1 hs
    have hbefore : c.windows.Pairwise Before := hwindows ▸ (windows_before minLength t).filter _
    rcases List.mem_cons.1 hw with rfl | hw
    · exact Nat.le_refl _
    · have hlt := (List.pairwise_cons.1 hbefore).1 w hw
      show c.lead.first ≤ w.first
      rcases hlt with hlt | hlt
      · omega
      · omega

/-- What occurs twice and is long enough is a candidate. -/
theorem exists_candidate (hx : minLength ≤ x.length) (htwice : 2 ≤ (occurrences t x).card) :
    ∃ c ∈ candidates (windows minLength t), c.lead.text = x := by
  rw [← length_filter_windows hx] at htwice
  obtain ⟨lead, second, more, hlist⟩ : ∃ lead second more,
      (windows minLength t).filter (·.text == x) = lead :: second :: more := by
    obtain ⟨lead, rest, hlist⟩ := List.exists_cons_of_length_pos (Nat.lt_of_succ_lt htwice)
    rw [hlist, List.length_cons] at htwice
    obtain ⟨second, more, rfl⟩ := List.exists_cons_of_length_pos (Nat.lt_of_succ_lt_succ htwice)
    exact ⟨lead, second, more, hlist⟩
  have hlead : lead ∈ (windows minLength t).filter (·.text == x) := hlist ▸ List.mem_cons_self
  have htext : lead.text = x := by
    rw [List.mem_filter, beq_iff_eq] at hlead
    exact hlead.2
  refine ⟨⟨lead, second :: more⟩, mem_candidates_iff.2 ⟨List.cons_ne_nil _ _, ?_⟩, htext⟩
  rw [htext, hlist]
  rfl

/-- If the candidates are in the order of choice, and the chosen ones in that of the text, nothing is moved. -/
theorem ofText_of_sorted (hchoice : (candidates (windows minLength t)).Pairwise fun a b => a.le b = true)
    (hfirst : (choose [] (candidates (windows minLength t))).Pairwise fun a b => decide (a.first ≤ b.first) = true) :
    ofText minLength t = choose [] (candidates (windows minLength t)) := by
  rw [ofText, List.mergeSort_of_pairwise hchoice, List.mergeSort_of_pairwise hfirst]

theorem mem_ofText_iff : d ∈ ofText minLength t ↔
    d ∈ choose [] ((candidates (windows minLength t)).mergeSort Candidate.le) :=
  List.mem_mergeSort

theorem exists_candidate_of_mem (h : d ∈ ofText minLength t) :
    ∃ c ∈ candidates (windows minLength t), d = c.duplicate := by
  obtain ⟨c, hc, hd, -⟩ := apart_of_mem_choose (mem_ofText_iff.1 h)
  exact ⟨c, List.mem_mergeSort.1 hc, hd⟩

theorem reported_of_mem (h : d ∈ ofText minLength t) : Reported minLength t d := by
  obtain ⟨c, hc, rfl⟩ := exists_candidate_of_mem h
  exact reported_of_candidate hc

/-- The reported duplicates come in the order of the text, each behind the end of the one before. -/
theorem ofText_increasing (minLength : Int) (t : Text) :
    (ofText minLength t).Pairwise fun a b => a.first < b.first ∧ a.last < b.first := by
  have hsorted : (ofText minLength t).Pairwise fun a b => a.first ≤ b.first := by
    refine (List.pairwise_mergeSort ?_ ?_ _).imp ?_
    · intro a b c hab hbc
      rw [decide_eq_true_iff] at hab hbc ⊢
      omega
    · intro a b
      rw [Bool.or_eq_true, decide_eq_true_iff, decide_eq_true_iff]
      omega
    · intro a b hab
      exact of_decide_eq_true hab
  have hapart : (ofText minLength t).Pairwise Apart :=
    (choose_apart [] _).perm (List.mergeSort_perm _ _).symm Or.symm
  refine (hsorted.and hapart).imp_of_mem ?_
  intro a b ha hb hab
  obtain ⟨hle, hapart⟩ := hab
  have ha := (reported_of_mem ha).window.two_lines
  have hb := (reported_of_mem hb).window.two_lines
  rcases hapart with hapart | hapart
  · omega
  · omega

/-- **Every reported duplicate is real, rightly counted and apart from the others.** It is a window of the text, long
enough, reported where it occurs first, and as often as it occurs. The reported windows follow each other in the text,
and no two of them share a line. -/
theorem ofText_reported (minLength : Int) (t : Text) :
    (∀ d ∈ ofText minLength t, Reported minLength t d) ∧
    (ofText minLength t).Pairwise fun a b =>
      a.first < b.first ∧ Disjoint (Finset.Icc a.first a.last) (Finset.Icc b.first b.last) := by
  refine ⟨fun d hd => reported_of_mem hd, (ofText_increasing minLength t).imp ?_⟩
  intro a b hab
  refine ⟨hab.1, Finset.disjoint_left.2 ?_⟩
  intro n hn hn'
  rw [Finset.mem_Icc] at hn hn'
  omega

/-- Occurrences that overlap are counted both. -/
theorem ofText_reported_overlap : ofText 5 "a\nb\na\nb\na".toList = [⟨"a\nb\na".toList, 2, 1, 3⟩] ∧
    Reported 5 "a\nb\na\nb\na".toList ⟨"a\nb\na".toList, 2, 1, 3⟩ := by
  have htext : ofText 5 "a\nb\na\nb\na".toList = [⟨"a\nb\na".toList, 2, 1, 3⟩] :=
    (ofText_of_sorted (by decide +kernel) (by decide +kernel)).trans (by decide +kernel)
  refine ⟨htext, (ofText_reported 5 "a\nb\na\nb\na".toList).1 _ ?_⟩
  rw [htext]
  exact List.mem_singleton_self _

/-- Two windows share a line. -/
def ShareLine (u v : Nat × Nat) : Prop :=
  ∃ n, n ∈ Finset.Icc u.1 u.2 ∧ n ∈ Finset.Icc v.1 v.2

theorem shareLine_of_touches {v w : Window} (hv : v.first ≤ v.last) (hw : w.first ≤ w.last)
    (h : touches v w = true) : ShareLine (v.first, v.last) (w.first, w.last) := by
  simp only [touches, Bool.and_eq_true, decide_eq_true_iff] at h
  refine ⟨max v.first w.first, ?_, ?_⟩
  · rw [Finset.mem_Icc]
    omega
  · rw [Finset.mem_Icc]
    omega

/-- What occurs twice is reported, or touched where it occurs first. -/
theorem reported_or_touched (hx : minLength ≤ x.length) (htwice : 2 ≤ (occurrences t x).card) :
    (∃ d ∈ ofText minLength t, d.text = x) ∨
      ∃ v ∈ occurrences t x, (∀ s ∈ occurrences t x, v.1 ≤ s.1) ∧
        ∃ d ∈ ofText minLength t, ∃ u ∈ occurrences t d.text, ShareLine u v ∧ v.2 - v.1 ≤ u.2 - u.1 := by
  obtain ⟨c, hc, rfl⟩ := exists_candidate hx htwice
  have hreport := reported_of_candidate hc
  have hsorted := sorted_candidates (candidates (windows minLength t))
  rcases chosen_or_covered [] hsorted (List.mem_mergeSort.2 hc) with
    hchosen | ⟨w, hw, -⟩ | ⟨c', hc', hchosen, hheight, w, hw, htouch⟩
  · exact Or.inl ⟨c.duplicate, mem_ofText_iff.2 hchosen, rfl⟩
  · cases hw
  · have hlead : (c.lead.first, c.lead.last) ∈ occurrences t c.lead.text :=
      (mem_occurrences_of_candidate hc).2 ⟨c.lead, List.mem_cons_self, rfl⟩
    have hother : (w.first, w.last) ∈ occurrences t c'.lead.text :=
      (mem_occurrences_of_candidate (List.mem_mergeSort.1 hc')).2 ⟨w, hw, rfl⟩
    have hwide := (mem_occurrences_iff.1 hother).1.two_lines
    have hwide' := hreport.window.two_lines
    -- all windows of a candidate are as high as its first one
    have hhigh := (reported_of_candidate (List.mem_mergeSort.1 hc')).height_eq _ hother
    refine Or.inr ⟨_, hlead, hreport.first_le, c'.duplicate, mem_ofText_iff.2 hchosen, _, hother, ?_, ?_⟩
    · exact shareLine_of_touches (Nat.le_of_succ_le hwide) (Nat.le_of_succ_le hwide') htouch
    · rw [hhigh]
      exact hheight

/-- **Nothing that occurs twice is missed.** A text that is long enough and occurs at two windows is reported, or the
first of its windows shares a line with a window of a reported text, one that is at least as high. So nothing is
reported only if nothing occurs twice. -/
theorem ofText_complete (minLength : Int) (t : Text) :
    (∀ x : Text, minLength ≤ x.length → 2 ≤ (occurrences t x).card →
      (∃ d ∈ ofText minLength t, d.text = x) ∨
        ∃ v ∈ occurrences t x, (∀ s ∈ occurrences t x, v.1 ≤ s.1) ∧
          ∃ d ∈ ofText minLength t, ∃ u ∈ occurrences t d.text, ShareLine u v ∧ v.2 - v.1 ≤ u.2 - u.1) ∧
    (ofText minLength t = [] ↔ ∀ x : Text, minLength ≤ x.length → ¬ 2 ≤ (occurrences t x).card) := by
  refine ⟨fun x hx htwice => reported_or_touched hx htwice, ?_⟩
  constructor
  · intro hnil x hx htwice
    rcases reported_or_touched hx htwice with ⟨d, hd, -⟩ | ⟨v, -, -, d, hd, -⟩
    · rw [hnil] at hd
      cases hd
    · rw [hnil] at hd
      cases hd
  · intro hnone
    rw [List.eq_nil_iff_forall_not_mem]
    intro d hd
    have hreport := reported_of_mem hd
    have htwice := hreport.twice
    rw [hreport.count_eq] at htwice
    exact hnone d.text hreport.long htwice

/-- Two lines that occur twice, but inside of three lines that do. -/
theorem ofText_complete_inside :
    let t := "a\nb\nccc\na\nb\nccc".toList
    2 ≤ (occurrences t "b\nccc".toList).card ∧
      ∃ v ∈ occurrences t "b\nccc".toList, ∃ d ∈ ofText 5 t, ∃ u ∈ occurrences t d.text,
        ShareLine u v ∧ v.2 - v.1 ≤ u.2 - u.1 := by
  intro t
  have htwice : 2 ≤ (occurrences t "b\nccc".toList).card := by decide +kernel
  have htext : ofText 5 t = [⟨"a\nb\nccc".toList, 2, 1, 3⟩] :=
    (ofText_of_sorted (by decide +kernel) (by decide +kernel)).trans (by decide +kernel)
  rcases (ofText_complete 5 t).1 "b\nccc".toList (by decide) htwice with ⟨d, hd, hx⟩ | ⟨v, hv, -, h⟩
  · rw [htext] at hd
    rw [List.mem_singleton.1 hd] at hx
    exact absurd hx (by decide)
  · exact ⟨htwice, v, hv, h⟩

end CodeSurvey.Duplicate
