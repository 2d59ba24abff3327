import CodeSurvey.Proofs.Performance.LoopLines

/-!
# The search for loops in loops

The patterns of the estimate find exactly the loops that lines tell: headers that enclose loops, as deep as the
patterns go. The indentation that is asked for once more is the one of the header, since no loop word starts with a
space or tab.

* `foundIn_double_iff`, `foundIn_triple_iff`, `foundIn_single_iff`: what the patterns find.
* `Estimate.ofTime_python_iff`: the estimate, told by lines.
-/

namespace CodeSurvey

open Pattern Cursor
open Text (indent dropIndent indent_append_dropIndent isGap_of_mem_indent indent_append dropIndent_append)

namespace IndentedLoop

variable {t a g l x y z : Text} {i j k limit : Nat} {c d : Cursor}

/-! ## Loops in loops -/

/-- A search that starts with a line and its indentation. -/
theorem exists_outcome_indent {p : Pattern} :
    (∃ k ≤ t.length, ∃ s, s ∈ (lineStart ++ (group outer gap ++ p)).outcomes limit ⟨ofPlace t k, []⟩) ↔
      ∃ i < (Text.lines t).length, ∃ a y, (Text.lines t).getD i [] = a ++ y ∧
        (∀ ch ∈ a, isGap ch = true) ∧
        ∃ s, s ∈ p.outcomes limit ((⟨row t i, []⟩ : Reading).mark outer a) := by
  simp only [exists_outcome_seq, mem_outcomes_group (p := gap) rfl rfl]
  constructor
  · rintro ⟨k, hk, u, hu, -, ⟨d, hd, rfl⟩, hs⟩
    rw [outcomes] at hu
    split at hu
    · rename_i hstart
      obtain rfl := List.mem_singleton.1 hu
      obtain ⟨i, hi, hrow⟩ := (atLineStart_iff hk).1 hstart
      simp only [hrow] at hd hs
      obtain ⟨a, y, hl, ha, rfl⟩ := (mem_stops_span_line (onLine_row (getElem?_line hi)) rfl).1 hd
      exact ⟨i, hi, a, y, hl, ha, hs⟩
    · cases hu
  · rintro ⟨i, hi, a, y, hl, ha, hs⟩
    refine ⟨_, row_place_le hi, ⟨row t i, []⟩, ?_, _, ⟨(row t i).advance a.length, ?_, rfl⟩, hs⟩
    · rw [outcomes, if_pos ((atLineStart_iff (row_place_le hi)).2 ⟨i, hi, rfl⟩)]
      exact List.mem_singleton.2 rfl
    · exact (mem_stops_span_line (onLine_row (getElem?_line hi)) rfl).2 ⟨a, y, hl, ha, rfl⟩

/-- The search for a loop in the body of a header. -/
theorem exists_outcome_innerLoop {p q : Pattern} {u : Reading} (hp : p.groups = [])
    (hfill : p.fill u.held = q) (hgroups : q.groups = []) (hrecalls : q.recalls = false)
    (ha : ∀ ch ∈ a, isGap ch = true) (hq : ∀ c d, d ∈ q.stops limit c ↔ d ∈ (text a).stops limit c)
    (hlimit : (Text.lines t).length ≤ limit + 1) (h : OnLine t i y u.cursor) :
    (∃ s, s ∈ (intoBody p ++ (someGap ++ loopWord)).outcomes limit u) ↔
      startsLoop y = true ∧ endsInColon y = true ∧ ∃ j, i < j ∧
        (∀ k < j, i < k → staysIn a ((Text.lines t).getD k []) = true) ∧
        isDeeper a ((Text.lines t).getD j []) = true ∧ LoopAt (Text.lines t) j := by
  have hend : '\n' ∉ a := notMem_of_gaps ha rfl
  have hnone : (intoBody p ++ (someGap ++ loopWord)).groups = [] := by
    show [] ++ (p.groups ++ [] ++ [] ++ [] ++ [] ++ ([] ++ [])) ++ p.groups ++ [] = []
    rw [hp]
    rfl
  have hfilled : (intoBody p ++ (someGap ++ loopWord)).fill u.held
      = intoBody q ++ (someGap ++ loopWord) := by
    rw [← hfill]
    rfl
  have hrecalls' : (intoBody q ++ (someGap ++ loopWord)).recalls = false := by
    show (false || (q.recalls || false || false || false || false || (false || false)) || q.recalls || false)
      = false
    rw [hrecalls]
    rfl
  rw [outcomes_fill _ hnone, hfilled, exists_outcome_iff_stops hrecalls']
  constructor
  · rintro ⟨d, hd⟩
    obtain ⟨e, he, hd⟩ := (mem_stops_seq rfl).1 hd
    obtain ⟨hstarts, hends, j, z, hij, hj, hall, hz, rfl⟩ :=
      (mem_stops_intoBody hgroups hrecalls ha hq hlimit h).1 he
    have hline := onLine_row (getElem?_line hj)
    rw [hz] at hline
    obtain ⟨g, x, rfl, hne, hg, hx⟩ := (exists_stop_innerWord hline.advance).1 ⟨d, hd⟩
    exact ⟨hstarts, hends, j, hij, hall, (isDeeper_loopAt_iff ha).2 ⟨g, x, hz, hne, hg, hx⟩⟩
  · rintro ⟨hstarts, hends, j, hij, hall, hinner⟩
    have hj := hinner.2.lt
    obtain ⟨g, x, hz, hne, hg, hx⟩ := (isDeeper_loopAt_iff ha).1 hinner
    have hline := onLine_row (getElem?_line hj)
    rw [hz] at hline
    obtain ⟨d, hd⟩ := (exists_stop_innerWord hline.advance).2 ⟨g, x, rfl, hne, hg, hx⟩
    exact ⟨d, (mem_stops_seq rfl).2 ⟨_, (mem_stops_intoBody hgroups hrecalls ha hq hlimit h).2
      ⟨hstarts, hends, j, _, hij, hj, hall, hz, rfl⟩, hd⟩⟩

theorem length_lines_le (t : Text) : (Text.lines t).length ≤ t.length + 1 := by
  rw [Text.length_lines]
  exact Nat.succ_le_succ List.count_le_length

/-- **A loop in a loop is found exactly where a header encloses a loop.** -/
theorem foundIn_double_iff (t : Text) : double.foundIn t = true ↔ ∃ i j, HeaderAt (Text.lines t) i ∧
    Encloses (Text.lines t) i j ∧ LoopAt (Text.lines t) j := by
  have hparts : ∀ r, double.outcomes t.length r
      = (lineStart ++ (group outer gap ++ (intoBody (again outer) ++ (someGap ++ loopWord)))).outcomes
          t.length r := by
    intro r
    simp only [double, containing, outerLoop, intoBody, outcomes_append_eq, List.flatMap_assoc]
  have hheader := fun i => exists_header_iff (i := i) fun j (hj : LoopAt (Text.lines t) j) => hj.lt
  simp only [foundIn_iff, hparts, exists_outcome_indent]
  constructor
  · rintro ⟨i, hi, a, y, hl, ha, hs⟩
    have hline := onLine_row (getElem?_line hi)
    rw [hl] at hline
    have hheld := held_mark (r := ⟨row t i, []⟩) outer (hline.prefix_append)
    obtain ⟨hstarts, hends, hrest⟩ := (exists_outcome_innerLoop rfl (fill_again hheld) rfl rfl ha
      (fun _ _ => Iff.rfl) (length_lines_le t) hline.advance).1 hs
    obtain ⟨hhead, j, hencloses, hj⟩ := (hheader i).1 ⟨a, y, hl, ha, hstarts, hends, hrest⟩
    exact ⟨i, j, hhead, hencloses, hj⟩
  · rintro ⟨i, j, hhead, hencloses, hj⟩
    obtain ⟨a, y, hl, ha, hstarts, hends, hrest⟩ := (hheader i).2 ⟨hhead, j, hencloses, hj⟩
    have hi := hhead.1.lt
    have hline := onLine_row (getElem?_line hi)
    rw [hl] at hline
    have hheld := held_mark (r := ⟨row t i, []⟩) outer (hline.prefix_append)
    exact ⟨i, hi, a, y, hl, ha, (exists_outcome_innerLoop rfl (fill_again hheld) rfl rfl ha
      (fun _ _ => Iff.rfl) (length_lines_le t) hline.advance).2 ⟨hstarts, hends, hrest⟩⟩

/-- The search for a header in the body of another one, and for a loop in its body. -/
theorem exists_outcome_innerHeader {u : Reading} (hheld : u.held outer = some a)
    (ha : ∀ ch ∈ a, isGap ch = true) (hlimit : (Text.lines t).length ≤ limit + 1)
    (h : OnLine t i y u.cursor) :
    (∃ s, s ∈ (intoBody (again outer) ++ (group inner someGap ++ (intoBody (again outer ++ again inner)
      ++ (someGap ++ loopWord)))).outcomes limit u) ↔
      startsLoop y = true ∧ endsInColon y = true ∧ ∃ j, i < j ∧
        (∀ k < j, i < k → staysIn a ((Text.lines t).getD k []) = true) ∧
        isDeeper a ((Text.lines t).getD j []) = true ∧ HeaderAt (Text.lines t) j ∧
        ∃ k, Encloses (Text.lines t) j k ∧ LoopAt (Text.lines t) k := by
  have hbody : ∀ v, v ∈ (intoBody (again outer)).outcomes limit u ↔
      v.cursor ∈ (intoBody (text a)).stops limit u.cursor ∧ v.captures = u.captures := by
    intro v
    have hfill : (intoBody (again outer)).fill u.held = intoBody (text a) := by
      rw [← fill_again hheld]
      rfl
    rw [outcomes_fill _ rfl, hfill, mem_outcomes_iff rfl rfl]
  -- the rest of the search, behind the indentation `a ++ b` of the inner header
  have hinner : ∀ {v : Reading} {j : Nat} {b z : Text}, v.captures = u.captures →
      (Text.lines t).getD j [] = a ++ (b ++ z) → (∀ ch ∈ b, isGap ch = true) →
      OnLine t j (b ++ z) v.cursor →
      ((∃ s, s ∈ (intoBody (again outer ++ again inner) ++ (someGap ++ loopWord)).outcomes limit
          (v.mark inner b)) ↔
        startsLoop z = true ∧ HeaderAt (Text.lines t) j ∧
          ∃ k, Encloses (Text.lines t) j k ∧ LoopAt (Text.lines t) k) := by
    intro v j b z hcaptures hl hb hline
    have hgaps : ∀ ch ∈ a ++ b, isGap ch = true := List.forall_mem_append.2 ⟨ha, hb⟩
    -- both labels are held here, the outer one from the header in front
    have hfill : (again outer ++ again inner).fill (v.mark inner b).held = text a ++ text b := by
      have houter : (v.mark inner b).held outer = some a := by
        rw [held_mark_of_ne (by decide), held_congr hcaptures, hheld]
      rw [← fill_again houter, ← fill_again (held_mark inner hline.prefix_append)]
      rfl
    rw [exists_outcome_innerLoop rfl hfill rfl rfl hgaps (fun _ _ => mem_stops_text_append) hlimit
      hline.advance]
    refine and_congr_right fun hstarts => ?_
    rw [headerAt_iff_of_startsLoop (fun k (hk : LoopAt (Text.lines t) k) => hk.lt)
      (hl.trans (List.append_assoc a b z).symm) hgaps hstarts]
  simp only [exists_outcome_seq (p := intoBody (again outer)), exists_outcome_seq (p := group inner someGap),
    hbody, mem_outcomes_group (p := someGap) rfl rfl]
  constructor
  · rintro ⟨v, ⟨hv, hcaptures⟩, -, ⟨d, hd, rfl⟩, hs⟩
    obtain ⟨hstarts, hends, j, z, hij, hj, hall, hz, hcursor⟩ :=
      (mem_stops_intoBody rfl rfl ha (fun _ _ => Iff.rfl) hlimit h).1 hv
    have hline := onLine_row (getElem?_line hj)
    rw [hz] at hline
    have hline := hline.advance
    rw [← hcursor] at hline
    obtain ⟨b, z, rfl, hne, hb, rfl⟩ := (mem_stops_someGap_line hline).1 hd
    obtain ⟨hloop, hheader⟩ := (hinner hcaptures hz hb hline).1 hs
    exact ⟨hstarts, hends, j, hij, hall,
      ((isDeeper_loopAt_iff ha).2 ⟨b, z, hz, hne, hb, hloop⟩).1, hheader⟩
  · rintro ⟨hstarts, hends, j, hij, hall, hdeeper, hheader⟩
    have hj := hheader.1.1.lt
    obtain ⟨b, z, hz, hne, hb, hloop⟩ := (isDeeper_loopAt_iff ha).1 ⟨hdeeper, hheader.1.1⟩
    have hline := onLine_row (getElem?_line hj)
    rw [hz] at hline
    have hline := hline.advance
    have hrest := (hinner (v := ⟨(row t j).advance a.length, u.captures⟩) rfl hz hb hline).2 ⟨hloop, hheader⟩
    refine ⟨⟨(row t j).advance a.length, u.captures⟩, ⟨?_, rfl⟩, _,
      ⟨((row t j).advance a.length).advance b.length, ?_, rfl⟩, hrest⟩
    · exact (mem_stops_intoBody rfl rfl ha (fun _ _ => Iff.rfl) hlimit h).2
        ⟨hstarts, hends, j, _, hij, hj, hall, hz, rfl⟩
    · exact (mem_stops_someGap_line hline).2 ⟨b, z, rfl, hne, hb, rfl⟩

/-- **Three loops in one another are found exactly where a header encloses a header that encloses a loop.** -/
theorem foundIn_triple_iff (t : Text) : triple.foundIn t = true ↔ ∃ i j k, HeaderAt (Text.lines t) i ∧
    HeaderAt (Text.lines t) j ∧ Encloses (Text.lines t) i j ∧ Encloses (Text.lines t) j k ∧
    LoopAt (Text.lines t) k := by
  have hparts : ∀ r, triple.outcomes t.length r
      = (lineStart ++ (group outer gap ++ (intoBody (again outer) ++ (group inner someGap
          ++ (intoBody (again outer ++ again inner) ++ (someGap ++ loopWord)))))).outcomes t.length r := by
    intro r
    simp only [triple, outerLoop, intoBody, outcomes_append_eq, List.flatMap_assoc]
  have hheader := fun i => exists_header_iff (i := i) fun j (hj : HeaderAt (Text.lines t) j ∧
    ∃ k, Encloses (Text.lines t) j k ∧ LoopAt (Text.lines t) k) => hj.1.1.lt
  simp only [foundIn_iff, hparts, exists_outcome_indent]
  constructor
  · rintro ⟨i, hi, a, y, hl, ha, hs⟩
    have hline := onLine_row (getElem?_line hi)
    rw [hl] at hline
    have hheld := held_mark (r := ⟨row t i, []⟩) outer hline.prefix_append
    obtain ⟨hstarts, hends, hrest⟩ :=
      (exists_outcome_innerHeader hheld ha (length_lines_le t) hline.advance).1 hs
    obtain ⟨hhead, j, hij, hj, k, hjk, hk⟩ := (hheader i).1 ⟨a, y, hl, ha, hstarts, hends, hrest⟩
    exact ⟨i, j, k, hhead, hj, hij, hjk, hk⟩
  · rintro ⟨i, j, k, hhead, hj, hij, hjk, hk⟩
    obtain ⟨a, y, hl, ha, hstarts, hends, hrest⟩ := (hheader i).2 ⟨hhead, j, hij, hj, k, hjk, hk⟩
    have hi := hhead.1.lt
    have hline := onLine_row (getElem?_line hi)
    rw [hl] at hline
    have hheld := held_mark (r := ⟨row t i, []⟩) outer hline.prefix_append
    exact ⟨i, hi, a, y, hl, ha, (exists_outcome_innerHeader hheld ha (length_lines_le t) hline.advance).2
      ⟨hstarts, hends, hrest⟩⟩

/-! ## Loops of their own -/

theorem behindAsync_of_startsLoop (h : startsLoop x = true) : behindAsync x = x := by
  obtain ⟨w, hw, z, rfl, -⟩ := startsLoop_iff.1 h
  simp only [List.mem_cons, List.not_mem_nil, or_false] at hw
  rcases hw with rfl | rfl <;> rfl

theorem behindAsync_append (hne : g ≠ []) (hg : ∀ ch ∈ g, isGap ch = true) (hz : startsLoop z = true) :
    behindAsync ("async".toList ++ (g ++ z)) = z := by
  have hdrop : ("async".toList ++ (g ++ z)).drop 5 = g ++ z := rfl
  have hhead : (g ++ z).head?.any isGap = true := by
    obtain ⟨ch, g, rfl⟩ := List.exists_cons_of_ne_nil hne
    exact hg ch List.mem_cons_self
  have hprefix : "async".toList.isPrefixOf ("async".toList ++ (g ++ z)) = true :=
    List.isPrefixOf_iff_prefix.2 (List.prefix_append _ _)
  rw [behindAsync, hdrop, hprefix, hhead, Bool.and_self, if_pos rfl]
  exact dropIndent_append hg (head_of_startsLoop hz)

/-- Nothing is left out, or the word and the spaces and tabs behind it. -/
theorem behindAsync_cases (x : Text) : behindAsync x = x ∨
    ∃ g, g ≠ [] ∧ (∀ ch ∈ g, isGap ch = true) ∧ x = "async".toList ++ (g ++ behindAsync x) := by
  unfold behindAsync
  split
  · rename_i h
    rw [Bool.and_eq_true, List.isPrefixOf_iff_prefix] at h
    obtain ⟨⟨y, rfl⟩, hgap⟩ := h
    have hdrop : ("async".toList ++ y).drop 5 = y := rfl
    rw [hdrop] at hgap ⊢
    refine Or.inr ⟨indent y, fun hnil => ?_, isGap_of_mem_indent, by rw [indent_append_dropIndent]⟩
    cases y with
    | nil => cases hgap
    | cons ch y =>
      have hch : isGap ch = true := hgap
      rw [indent, List.takeWhile_cons_of_pos hch] at hnil
      cases hnil
  · exact Or.inl rfl

/-- The pattern of a loop word and a colon behind it, on one line. -/
theorem exists_stop_colon (h : OnLine t i y c) : (∃ e ∈ loopWord.stops limit c,
    ∃ d, d ∈ (lineRest ++ lit ":").stops limit e) ↔ startsLoop y = true ∧ ':' ∈ y := by
  have hcolon : ∀ w ∈ ["for", "while"], ':' ∉ w.toList := by decide
  constructor
  · rintro ⟨e, he, d, hd⟩
    obtain ⟨w, hw, y, rfl, hy, rfl⟩ := (mem_stops_loopWord_line h).1 he
    obtain ⟨e, he, hd⟩ := (mem_stops_seq rfl).1 hd
    obtain ⟨u, y, rfl, rfl⟩ := (mem_stops_lineRest_line h.advance).1 he
    obtain ⟨z, rfl, -⟩ := (mem_stops_text_line h.advance.advance (by decide)).1 hd
    exact ⟨startsLoop_iff.2 ⟨w, hw, _, rfl, hy⟩, by simp⟩
  · rintro ⟨hstarts, hmem⟩
    obtain ⟨w, hw, z, rfl, hz⟩ := startsLoop_iff.1 hstarts
    have hmem := (List.mem_append.1 hmem).resolve_left (hcolon w hw)
    obtain ⟨u, v, rfl⟩ := List.append_of_mem hmem
    have hrest : _ ∈ lineRest.stops limit _ := (mem_stops_lineRest_line h.advance).2 ⟨u, _, rfl, rfl⟩
    have hmark : _ ∈ (lit ":").stops limit _ :=
      (mem_stops_text_line h.advance.advance (by decide)).2 ⟨v, rfl, rfl⟩
    exact ⟨_, (mem_stops_loopWord_line h).2 ⟨w, hw, _, rfl, hz, rfl⟩, _,
      (mem_stops_seq rfl).2 ⟨_, hrest, hmark⟩⟩

/-- The word that makes a loop wait, if it is there. -/
theorem mem_stops_async (h : OnLine t i y c) : d ∈ (opt (lit "async" ++ someGap)).stops limit c ↔
    d = c ∨ ∃ g z, y = "async".toList ++ (g ++ z) ∧ g ≠ [] ∧ (∀ ch ∈ g, isGap ch = true) ∧
      d = (c.advance 5).advance g.length := by
  rw [opt, mem_stops_alt, mem_stops_empty, or_comm, mem_stops_seq rfl]
  refine or_congr_right ⟨?_, ?_⟩
  · rintro ⟨e, he, hd⟩
    obtain ⟨y, rfl, rfl⟩ := (mem_stops_text_line h (by decide)).1 he
    obtain ⟨g, z, rfl, hne, hg, rfl⟩ := (mem_stops_someGap_line h.advance).1 hd
    exact ⟨g, z, rfl, hne, hg, rfl⟩
  · rintro ⟨g, z, rfl, hne, hg, rfl⟩
    exact ⟨_, (mem_stops_text_line h (by decide)).2 ⟨_, rfl, rfl⟩,
      (mem_stops_someGap_line h.advance).2 ⟨g, z, rfl, hne, hg, rfl⟩⟩

/-- What is found behind the spaces and tabs in front of a line. -/
theorem exists_stop_single (h : OnLine t i y c) :
    (∃ f ∈ (opt (lit "async" ++ someGap)).stops limit c, ∃ e ∈ loopWord.stops limit f,
      ∃ d, d ∈ (lineRest ++ lit ":").stops limit e) ↔
      startsLoop (behindAsync y) = true ∧ ':' ∈ behindAsync y := by
  constructor
  · rintro ⟨f, hf, hrest⟩
    rcases (mem_stops_async h).1 hf with rfl | ⟨g, z, rfl, hne, hg, rfl⟩
    · have hloop := (exists_stop_colon h).1 hrest
      rwa [behindAsync_of_startsLoop hloop.1]
    · have hline : OnLine t i (g ++ z) (c.advance 5) := OnLine.advance (x := "async".toList) h
      have hloop := (exists_stop_colon hline.advance).1 hrest
      rwa [behindAsync_append hne hg hloop.1]
  · intro hloop
    rcases behindAsync_cases y with heq | ⟨g, hne, hg, heq⟩
    · rw [heq] at hloop
      exact ⟨c, (mem_stops_async h).2 (Or.inl rfl), (exists_stop_colon h).2 hloop⟩
    · have hasync : _ ∈ (opt (lit "async" ++ someGap)).stops limit c :=
        (mem_stops_async h).2 (Or.inr ⟨g, _, heq, hne, hg, rfl⟩)
      rw [heq] at h
      have hline : OnLine t i (g ++ behindAsync y) (c.advance 5) := OnLine.advance (x := "async".toList) h
      exact ⟨_, hasync, (exists_stop_colon hline.advance).2 hloop⟩

theorem countsAsLoop_iff : countsAsLoop l = true ↔
    startsLoop (behindAsync (dropIndent l)) = true ∧ ':' ∈ behindAsync (dropIndent l) := by
  rw [countsAsLoop, Bool.and_eq_true, List.contains_iff_mem]

/-- The pattern of a loop of its own, taken apart. -/
theorem exists_stop_indentedSingle : (∃ d, d ∈ Estimate.indentedSingle.stops limit c) ↔
    ∃ b ∈ (lineStart ++ gap).stops limit c, ∃ f ∈ (opt (lit "async" ++ someGap)).stops limit b,
      ∃ e ∈ loopWord.stops limit f, ∃ d, d ∈ (lineRest ++ lit ":").stops limit e := by
  have hassoc : Estimate.indentedSingle.stops limit c = (lineStart ++ gap
      ++ (opt (lit "async" ++ someGap) ++ (loopWord ++ (lineRest ++ lit ":")))).stops limit c := by
    simp only [stops, Estimate.indentedSingle, outcomes_append_eq, List.flatMap_assoc]
  rw [hassoc]
  constructor
  · rintro ⟨d, hd⟩
    obtain ⟨b, hb, hd⟩ := (mem_stops_seq rfl).1 hd
    obtain ⟨f, hf, hd⟩ := (mem_stops_seq rfl).1 hd
    obtain ⟨e, he, hd⟩ := (mem_stops_seq rfl).1 hd
    exact ⟨b, hb, f, hf, e, he, d, hd⟩
  · rintro ⟨b, hb, f, hf, e, he, d, hd⟩
    exact ⟨d, (mem_stops_seq rfl).2 ⟨b, hb, (mem_stops_seq rfl).2 ⟨f, hf,
      (mem_stops_seq rfl).2 ⟨e, he, hd⟩⟩⟩⟩

/-- **A loop is found exactly where a line counts as one.** -/
theorem foundIn_single_iff (t : Text) : Estimate.indentedSingle.foundIn t = true ↔
    ∃ i, countsAsLoop ((Text.lines t).getD i []) = true := by
  simp only [foundIn_iff_stops, exists_stop_indentedSingle, countsAsLoop_iff]
  constructor
  · rintro ⟨k, hk, b, hb, hrest⟩
    obtain ⟨b', hb', hb⟩ := (mem_stops_seq rfl).1 hb
    obtain ⟨hstart, rfl⟩ := mem_stops_lineStart.1 hb'
    obtain ⟨i, hi, hrow⟩ := (atLineStart_iff hk).1 hstart
    rw [hrow] at hb
    have hline := onLine_row (getElem?_line hi)
    obtain ⟨a, y, hl, ha, rfl⟩ := (mem_stops_span_line hline rfl).1 hb
    rw [hl] at hline
    have hfound := (exists_stop_single hline.advance).1 hrest
    -- neither the loop word nor the word in front of it starts with a space or tab
    have hhead : ∀ ch ∈ y.head?, isGap ch = false := by
      rcases behindAsync_cases y with heq | ⟨g, -, -, heq⟩
      · rw [heq] at hfound
        exact head_of_startsLoop hfound.1
      · rw [heq]
        simp [isGap]
    refine ⟨i, ?_⟩
    rwa [hl, dropIndent_append ha hhead]
  · rintro ⟨i, hfound⟩
    have hi : i < (Text.lines t).length := by
      by_contra hge
      rw [List.getD_eq_getElem?_getD, List.getElem?_eq_none (by omega)] at hfound
      exact absurd hfound.1 (by decide)
    have hline := onLine_row (getElem?_line hi)
    have hparts := indent_append_dropIndent ((Text.lines t).getD i [])
    have hindent : _ ∈ gap.stops t.length (row t i) :=
      (mem_stops_span_line hline rfl).2 ⟨_, _, hparts.symm, isGap_of_mem_indent, rfl⟩
    rw [← hparts] at hline
    have hstart : row t i ∈ lineStart.stops t.length (row t i) :=
      mem_stops_lineStart.2 ⟨(atLineStart_iff (row_place_le hi)).2 ⟨i, hi, rfl⟩, rfl⟩
    exact ⟨_, row_place_le hi, _, (mem_stops_seq rfl).2 ⟨_, hstart, hindent⟩,
      (exists_stop_single hline.advance).2 hfound⟩

end IndentedLoop

/-! ## The estimate -/

namespace Estimate

open IndentedLoop

/-- **The estimate of time, told by lines.** Where indentation tells blocks, growth is cubic exactly if a header
encloses a header that encloses a loop; otherwise quadratic exactly if a header encloses a loop; otherwise linear
exactly if a line counts as a loop; and otherwise constant. -/
theorem ofTime_python_iff (t : Text) :
    let ls := Text.lines t
    let triple := ∃ i j k, HeaderAt ls i ∧ HeaderAt ls j ∧ Encloses ls i j ∧ Encloses ls j k ∧ LoopAt ls k
    let double := ∃ i j, HeaderAt ls i ∧ Encloses ls i j ∧ LoopAt ls j
    let single := ∃ i, countsAsLoop (ls.getD i []) = true
    (ofTime .python t = time .cubic ↔ triple) ∧
      (ofTime .python t = time .quadratic ↔ ¬ triple ∧ double) ∧
      (ofTime .python t = time .linear ↔ ¬ triple ∧ ¬ double ∧ single) ∧
      (ofTime .python t = time .constant ↔ ¬ triple ∧ ¬ double ∧ ¬ single) := by
  intro ls triple double single
  have htriple : IndentedLoop.triple.foundIn t = true ↔ triple := foundIn_triple_iff t
  have hdouble : IndentedLoop.double.foundIn t = true ↔ double := foundIn_double_iff t
  have hsingle : indentedSingle.foundIn t = true ↔ single := foundIn_single_iff t
  have htime : ∀ g, ofTime .python t = time g ↔
      Growth.ofNesting IndentedLoop.triple IndentedLoop.double indentedSingle t = g := by
    intro g
    have hgrowth : (ofTime .python t).growth = _ := growth_ofTime_indented rfl t
    rw [← hgrowth]
    exact ⟨fun h => by rw [h]; rfl, fun h => by rw [← h]; rfl⟩
  simp only [htime, ← htriple, ← hdouble, ← hsingle, Growth.ofNesting]
  split_ifs <;> simp_all

end Estimate

end CodeSurvey
