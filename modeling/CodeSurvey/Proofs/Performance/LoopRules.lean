import CodeSurvey.Proofs.Performance.LoopNesting

/-!
# Nested loops in rules and in the estimate

The rules on nested loops find the head of a counting loop, and behind its brace the head of another one
before any brace is closed. The estimate of time asks for more: no brace of another block may stand between
them. Where only loops are open the two agree; where a condition or any other block is open between the
loops, a rule reports them and the estimate does not count them.

* `ForHead`, `OpenLoops`: what the rules find, heads of counting loops with no brace closed in between.
* `LoopBrace`, `LoopsBetween`: every brace between them opens a loop.
* `OpenLoops.exists_nested`: then the estimate finds as many loops nested.
* `PerformanceReport.loop_rules_and_time`: what a report says about loops, by rule and by time.
-/

namespace CodeSurvey

open Pattern

variable {t : Text} {i j k e f p limit : Nat} {d : Cursor}

/-! ## Braces that open loops -/

/-- A brace of either kind. -/
def IsBrace (t : Text) (b : Nat) : Prop :=
  t[b]? = some '{' ∨ t[b]? = some '}'

/-- **A brace that opens a loop**: between it and a loop word there is no other brace. -/
def LoopBrace (t : Text) (b : Nat) : Prop :=
  t[b]? = some '{' ∧ ∃ k e, LoopWordAt t k e ∧ e ≤ b ∧ ∀ ch ∈ Text.slice t e b, ch ≠ '{' ∧ ch ≠ '}'

/-- Every brace between two places opens a loop. -/
def LoopsOnly (t : Text) (i j : Nat) : Prop :=
  ∀ b, i ≤ b → b < j → IsBrace t b → LoopBrace t b

theorem exists_last_brace (hp : IsBrace t p) : ∀ {j : Nat}, p < j →
    ∃ b, p ≤ b ∧ b < j ∧ IsBrace t b ∧ ∀ k, b < k → k < j → ¬ IsBrace t k := by
  intro j
  induction j with
  | zero => intro h; omega
  | succ j ih =>
    intro hpj
    by_cases hj : IsBrace t j
    · exact ⟨j, by omega, by omega, hj, fun k hk hkj => by omega⟩
    · have hne : p ≠ j := by
        rintro rfl
        exact hj hp
      obtain ⟨b, hpb, hbj, hb, hlast⟩ := ih (by omega)
      refine ⟨b, hpb, by omega, hb, fun k hk hkj => ?_⟩
      rcases Nat.lt_or_ge k j with hlt | hge
      · exact hlast k hk hlt
      · obtain rfl : k = j := by omega
        exact hj

/-- **The last brace in front of a place opens a loop that the place is directly in**, and the braces before
it stand in front of the word of that loop. -/
theorem LoopsOnly.exists_direct (h : LoopsOnly t p j) (hp : IsBrace t p) (hpj : p < j) :
    ∃ k e, LoopWordAt t k e ∧ DirectlyIn t e j ∧ k < j ∧ ∀ q, IsBrace t q → q < p → q < k := by
  obtain ⟨b, hpb, hbj, hb, hlast⟩ := exists_last_brace hp hpj
  obtain ⟨hopen, k, e, hword, heb, hnone⟩ := h b hpb hbj hb
  have hke := hword.lt
  have hbetween : ∀ ch ∈ Text.slice t (b + 1) j, ch ≠ '{' ∧ ch ≠ '}' := by
    intro ch hch
    obtain ⟨m, hm, hmj, hget⟩ := Text.mem_slice_iff.1 hch
    have hnot := hlast m (by omega) hmj
    constructor
    · rintro rfl
      exact hnot (Or.inl hget)
    · rintro rfl
      exact hnot (Or.inr hget)
  refine ⟨k, e, hword, ⟨b, heb, hbj, hopen, fun ch hch => (hnone ch hch).1, hbetween⟩, by omega, ?_⟩
  intro q hq hqp
  obtain ⟨ch, hget, hch⟩ : ∃ ch, t[q]? = some ch ∧ (ch = '{' ∨ ch = '}') := by
    rcases hq with hq | hq
    · exact ⟨_, hq, Or.inl rfl⟩
    · exact ⟨_, hq, Or.inr rfl⟩
  -- behind the word there is no brace, and inside it there are letters only
  by_contra hkq
  rcases Nat.lt_or_ge q e with hqe | hqe
  · have hletter := hword.isWord (Text.mem_slice_iff.2 ⟨q, by omega, hqe, hget⟩)
    rcases hch with rfl | rfl <;> exact absurd hletter (by decide)
  · obtain ⟨ho, hc⟩ := hnone ch (Text.mem_slice_iff.2 ⟨q, hqe, by omega, hget⟩)
    rcases hch with rfl | rfl
    · exact ho rfl
    · exact hc rfl

/-- Braces in front of a loop, with nothing but loops opened behind them, give that many loops around it. -/
theorem exists_nested_of_braces {braces : List Nat} : ∀ {j f : Nat} {l : List (Nat × Nat)},
    braces.Pairwise (· > ·) → (∀ p ∈ braces, p < j ∧ IsBrace t p ∧ LoopsOnly t p j) →
    NestedLoops t ((j, f) :: l) →
    ∃ l', l'.length = braces.length + 1 + l.length ∧ NestedLoops t l' := by
  -- from the last brace to the first, one loop more around the others each time
  induction braces with
  | nil =>
    intro j f l _ _ hnested
    exact ⟨_, by simp [Nat.add_comm], hnested⟩
  | cons p braces ih =>
    intro j f l hsorted hbraces hnested
    obtain ⟨hpj, hp, hloops⟩ := hbraces p List.mem_cons_self
    obtain ⟨hfirst, hrest⟩ := List.pairwise_cons.1 hsorted
    obtain ⟨k, e, hword, hin, hkj, hbefore⟩ := hloops.exists_direct hp hpj
    have hbraces' : ∀ q ∈ braces, q < k ∧ IsBrace t q ∧ LoopsOnly t q k := by
      intro q hq
      obtain ⟨-, hbrace, hloops⟩ := hbraces q (List.mem_cons_of_mem _ hq)
      exact ⟨hbefore q hbrace (hfirst q hq), hbrace, fun b hqb hbk => hloops b hqb (by omega)⟩
    obtain ⟨l', hl', hnested'⟩ := ih hrest hbraces' (nestedLoops_cons_cons.2 ⟨hword, hin, hnested⟩)
    refine ⟨l', ?_, hnested'⟩
    simp only [List.length_cons] at hl' ⊢
    omega

/-! ## What the rules find -/

/-- **The head of a counting loop** starts at `i` and ends with the opening brace at `p`: a whole word, a
bracketed header and the brace, with blanks between them. -/
structure ForHead (t : Text) (i p : Nat) : Prop where
  head : ∃ w ∈ ["for", "foreach"], ∃ x, (blanks ++ header ++ blanks).Spelled x ∧
    p = i + (w.toList ++ x).length ∧ Text.slice t i (p + 1) = w.toList ++ x ++ ['{']
  before : ∀ k c, i = k + 1 → t[k]? = some c → Text.isWord c = false

/-- What stands between the word of a counting loop and its brace starts with no letter. -/
theorem exists_head_of_spelled {x : Text} (h : (blanks ++ header ++ blanks).Spelled x) :
    ∃ ch rest, x = ch :: rest ∧ Text.isWord ch = false := by
  obtain ⟨_, b', ⟨b, _, hb, ⟨_, _, ⟨_, y, rfl, -, rfl⟩, rfl, rfl⟩, rfl⟩, -, rfl⟩ := h
  cases b with
  | nil => exact ⟨'(', _, rfl, by decide⟩
  | cons ch b => exact ⟨ch, _, rfl, Text.isWord_of_isBlank (hb ch List.mem_cons_self)⟩

theorem ForHead.brace (h : ForHead t i p) : t[p]? = some '{' := by
  obtain ⟨w, -, x, -, rfl, hslice⟩ := h.head
  rw [← Text.getElem?_slice (Nat.lt_succ_self _), hslice,
    List.getElem?_append_right (Nat.le_refl _), Nat.sub_self]
  rfl

theorem ForHead.exists_word (h : ForHead t i p) : ∃ e, LoopWordAt t i e ∧ e ≤ p := by
  obtain ⟨w, hw, x, hx, rfl, hslice⟩ := h.head
  obtain ⟨ch, rest, rfl, hch⟩ := exists_head_of_spelled hx
  have hlen : i + w.toList.length ≤ i + (w.toList ++ ch :: rest).length := by
    rw [List.length_append]
    omega
  have hword : w ∈ Text.loopKeywords :=
    Text.mem_loopKeywords_of_head (List.mem_append_left ["while"] hw)
  refine ⟨i + w.toList.length, ⟨⟨w, hword, rfl, ?_⟩, h.before, ?_⟩, hlen⟩
  · have htake := congrArg (List.take w.toList.length) hslice
    rw [Text.slice, List.take_take, List.append_assoc, List.take_left, Nat.min_eq_left (by omega)] at htake
    rwa [Text.slice, Nat.add_sub_cancel_left]
  · intro c hc
    rw [← Text.getElem?_slice (j := i + (w.toList ++ ch :: rest).length + 1) (by omega), hslice,
      List.append_assoc, List.getElem?_append_right (Nat.le_refl _), Nat.sub_self] at hc
    obtain rfl : ch = c := by simpa using hc
    exact hch

/-- The pattern of a counting loop stops behind the brace of such a head. -/
theorem exists_of_mem_stops_forLoop (hi : i ≤ t.length)
    (h : d ∈ Rules.forLoop.stops limit (Cursor.ofPlace t i)) :
    ∃ p, ForHead t i p ∧ p < t.length ∧ d = Cursor.ofPlace t (p + 1) := by
  obtain ⟨s, hs, rfl⟩ := mem_stops.1 h
  have hedge : (Cursor.ofPlace t i).atEdge = true := by
    by_contra hedge
    simp [Rules.forLoop, outcomes_append, outcomes, hedge] at hs
  obtain ⟨x, hx, hafter, hstop⟩ := exists_spelled_advance hs
  simp only [Cursor.ofPlace_advance] at hstop
  have hslice : Text.slice t i (i + x.length) = x :=
    prefix_drop_iff.1 ⟨s.cursor.after, hafter.symm⟩
  -- the parts of the head
  obtain ⟨_, _, ⟨_, b', ⟨_, y, ⟨_, b, ⟨_, each, ⟨_, _, rfl, rfl, rfl⟩, heach, rfl⟩, hb, rfl⟩, hy, rfl⟩,
    hb', rfl⟩, rfl, rfl⟩ := hx
  obtain ⟨w, hw, hword⟩ : ∃ w ∈ ["for", "foreach"], "for".toList ++ each = w.toList := by
    rcases heach with rfl | rfl
    · exact ⟨"foreach", by simp, rfl⟩
    · exact ⟨"for", by simp, rfl⟩
  have hnext : (Cursor.ofPlace t i).nextIs Text.isWord = true := by
    rw [Cursor.nextIs, hafter]
    rfl
  have hparts : [] ++ "for".toList ++ each ++ b ++ y ++ b' ++ "\x7b".toList
      = w.toList ++ (b ++ y ++ b') ++ ['{'] := by
    rw [← hword]
    simp
  rw [hparts] at hslice hstop hafter
  have hlen : (w.toList ++ (b ++ y ++ b') ++ ['{']).length
      = (w.toList ++ (b ++ y ++ b')).length + 1 := by
    simp only [List.length_append, List.length_cons, List.length_nil]
  rw [hlen, ← Nat.add_assoc] at hslice hstop
  have hhead : ForHead t i (i + (w.toList ++ (b ++ y ++ b')).length) :=
    ⟨⟨w, hw, b ++ y ++ b', ⟨_, b', ⟨b, y, hb, hy, rfl⟩, hb', rfl⟩, rfl, hslice⟩,
      (atEdge_ofPlace_iff_before hi hnext).1 hedge⟩
  have hlt := (List.getElem?_eq_some_iff.1 hhead.brace).1
  exact ⟨_, hhead, hlt, hstop⟩

/-- **Heads of counting loops, with no brace closed in between**: what the rules on nested loops find. -/
structure OpenLoops (t : Text) (heads : List (Nat × Nat)) : Prop where
  isHead : ∀ h ∈ heads, ForHead t h.1 h.2
  unclosed : heads.IsChain fun a b => a.2 < b.1 ∧ '}' ∉ Text.slice t (a.2 + 1) b.1

/-- From the brace of one head to the start of another, every brace opens a loop. -/
def LoopsBetween (t : Text) (heads : List (Nat × Nat)) : Prop :=
  ∀ a ∈ heads, ∀ b ∈ heads, LoopsOnly t a.2 b.1

theorem OpenLoops.pairwise : ∀ {heads : List (Nat × Nat)}, OpenLoops t heads →
    heads.Pairwise fun a b => a.2 < b.1
  | [], _ => List.Pairwise.nil
  | [_], _ => List.pairwise_singleton _ _
  | a :: b :: heads, h => by
    obtain ⟨hab, hchain⟩ := List.isChain_cons_cons.1 h.unclosed
    have hrest := OpenLoops.pairwise ⟨fun x hx => h.isHead x (List.mem_cons_of_mem _ hx), hchain⟩
    refine List.pairwise_cons.2 ⟨fun x hx => ?_, hrest⟩
    rcases List.mem_cons.1 hx with rfl | hx
    · exact hab.1
    · -- the brace of the second head stands between the two
      have hbx := (List.pairwise_cons.1 hrest).1 x hx
      obtain ⟨e, hword, heb⟩ := (h.isHead b (by simp)).exists_word
      have := hword.lt
      omega

/-- **Where only loops are open between them, loops that the rules find are directly nested.** -/
theorem OpenLoops.exists_nested {heads : List (Nat × Nat)} (h : OpenLoops t heads)
    (hloops : LoopsBetween t heads) : ∃ l, l.length = heads.length ∧ NestedLoops t l := by
  have hpair := List.pairwise_reverse.2 h.pairwise
  cases hrev : heads.reverse with
  | nil =>
    have hnil := List.reverse_eq_nil_iff.1 hrev
    exact ⟨[], by simp [hnil], by simp, List.isChain_nil⟩
  | cons w outer =>
    have hmem : ∀ x ∈ w :: outer, x ∈ heads := fun x hx => List.mem_reverse.1 (hrev ▸ hx)
    rw [hrev] at hpair
    obtain ⟨hfirst, hrest⟩ := List.pairwise_cons.1 hpair
    obtain ⟨f, hword, -⟩ := (h.isHead w (hmem w List.mem_cons_self)).exists_word
    have hbrace : ∀ x ∈ outer, t[x.2]? = some '{' := fun x hx =>
      (h.isHead x (hmem x (List.mem_cons_of_mem _ hx))).brace
    have hsorted : (outer.map Prod.snd).Pairwise (· > ·) := by
      rw [List.pairwise_map]
      refine hrest.imp_of_mem fun {x y} hx _ hyx => ?_
      obtain ⟨e, hx', hex⟩ := (h.isHead x (hmem x (List.mem_cons_of_mem _ hx))).exists_word
      have := hx'.lt
      omega
    have hbraces : ∀ p ∈ outer.map Prod.snd, p < w.1 ∧ IsBrace t p ∧ LoopsOnly t p w.1 := by
      intro p hp
      obtain ⟨x, hx, rfl⟩ := List.mem_map.1 hp
      exact ⟨hfirst x hx, Or.inl (hbrace x hx),
        hloops x (hmem x (List.mem_cons_of_mem _ hx)) w (hmem w List.mem_cons_self)⟩
    obtain ⟨l, hl, hnested⟩ := exists_nested_of_braces hsorted hbraces
      (nestedLoops_singleton.2 hword)
    have hlen := congrArg List.length hrev
    rw [List.length_reverse, List.length_cons] at hlen
    refine ⟨l, ?_, hnested⟩
    rw [hl, List.length_map, hlen]
    rfl

/-- Behind the brace of a head, the patterns of the rules look for the next one before a closing brace. -/
theorem exists_of_mem_stops_next {q : Pattern} {c : Cursor}
    (h : d ∈ (q ++ Rules.beforeClose ++ Rules.forLoop).stops limit c) : ∃ u ∈ q.stops limit c,
      ∀ p, p < t.length → u = Cursor.ofPlace t (p + 1) → ∃ j r, p < j ∧
        '}' ∉ Text.slice t (p + 1) j ∧ ForHead t j r ∧ r < t.length ∧ d = Cursor.ofPlace t (r + 1) := by
  obtain ⟨v, hv, hd⟩ := (mem_stops_seq rfl).1 h
  obtain ⟨u, hu, hv⟩ := (mem_stops_seq rfl).1 hv
  refine ⟨u, hu, fun p hp heq => ?_⟩
  subst heq
  obtain ⟨j, hpj, hj, hgap, rfl⟩ := (mem_stops_span_ofPlace hp).1 hv
  obtain ⟨r, hhead, hr, rfl⟩ := exists_of_mem_stops_forLoop hj hd
  refine ⟨j, r, hpj, fun hclose => ?_, hhead, hr, rfl⟩
  exact absurd (hgap _ hclose) (by decide)

/-- What the two rules on nested loops have in common. -/
theorem exists_openLoops_two (hi : i ≤ t.length)
    (h : d ∈ (Rules.forLoop ++ Rules.beforeClose ++ Rules.forLoop).stops limit (Cursor.ofPlace t i)) :
    ∃ p j r, OpenLoops t [(i, p), (j, r)] ∧ r < t.length ∧ d = Cursor.ofPlace t (r + 1) := by
  obtain ⟨u, hu, hnext⟩ := exists_of_mem_stops_next (t := t) h
  obtain ⟨p, hhead, hp, rfl⟩ := exists_of_mem_stops_forLoop hi hu
  obtain ⟨j, r, hpj, hclose, hhead', hr, rfl⟩ := hnext p hp rfl
  refine ⟨p, j, r, ⟨?_, ?_⟩, hr, rfl⟩
  · simpa using ⟨hhead, hhead'⟩
  · simpa using ⟨hpj, hclose⟩

theorem exists_openLoops_three (hi : i ≤ t.length)
    (h : d ∈ (Rules.forLoop ++ Rules.beforeClose ++ Rules.forLoop ++ Rules.beforeClose
      ++ Rules.forLoop).stops limit (Cursor.ofPlace t i)) :
    ∃ heads, heads.length = 3 ∧ OpenLoops t heads := by
  obtain ⟨u, hu, hnext⟩ := exists_of_mem_stops_next (t := t) h
  obtain ⟨p, j, r, htwo, hr, rfl⟩ := exists_openLoops_two hi hu
  obtain ⟨k, r', hrk, hclose, hhead, -, -⟩ := hnext r hr rfl
  have hfirst := htwo.isHead (i, p) (by simp)
  have hsecond := htwo.isHead (j, r) (by simp)
  obtain ⟨hpj, -⟩ := List.isChain_cons_cons.1 htwo.unclosed
  refine ⟨[(i, p), (j, r), (k, r')], rfl, ?_, ?_⟩
  · simpa using ⟨hfirst, hsecond, hhead⟩
  · simpa using ⟨hpj, hrk, hclose⟩

/-! ## Reports -/

/-- The rules on nested loops. -/
def loopRuleIds : List String :=
  ["triple-nested-loops", "nested-loops", "py-triple-nested-loops", "py-nested-loops"]

/-- They stand first among the rules of a language, and no other rule has their names. -/
theorem filter_rules (language : Language) :
    language.rules.filter (fun r => loopRuleIds.contains r.id)
      = if language.usesBraces then Rules.loops else Rules.indented.take 2 := by
  cases language <;> rfl

theorem ruleId_ofMetrics {language : Language} {source : Text} {issue : Issue}
    (h : issue ∈ Issue.ofMetrics language t source) : issue.ruleId ∉ loopRuleIds := by
  have hmetric : ∀ {metric severity description suggestion}, metric ∉ loopRuleIds →
      ∀ {issue}, issue ∈ [Issue.ofMetric metric severity description suggestion] →
        issue.ruleId ∉ loopRuleIds := by
    intro metric severity description suggestion hnot issue hissue
    rw [List.mem_singleton.1 hissue]
    exact hnot
  unfold Issue.ofMetrics at h
  simp only [List.mem_append] at h
  rcases h with (h | h) | h
  · split at h
    · cases h
    · exact hmetric (by decide) h
  · split at h
    · cases h
    · exact hmetric (by decide) h
  · split at h
    · cases h
    · unfold Issue.ofComponents at h
      simp only at h
      split at h
      · exact hmetric (by decide) h
      · cases h

namespace PerformanceReport

/-- The names of the rules that a report has issues of. -/
def reportedRules (r : PerformanceReport) : List String :=
  r.issues.map Issue.ruleId

variable {config : Config} {language : Language} {source : Text} {bodies : List (Text × Text)}
  {lineOffset : Nat} {id : String}

/-- An issue of a rule on nested loops says that the pattern of the rule can be read somewhere. -/
theorem exists_of_reported (hid : id ∈ loopRuleIds)
    (h : id ∈ (ofPart config language t source bodies lineOffset).reportedRules) :
    ∃ rule ∈ (if language.usesBraces then Rules.loops else Rules.indented.take 2), rule.id = id ∧
      ∃ i ≤ t.length, ∃ d, d ∈ rule.pattern.stops t.length (Cursor.ofPlace t i) := by
  obtain ⟨issue, hissue, rfl⟩ := List.mem_map.1 h
  rcases List.mem_append.1 hissue with hissue | hissue
  · obtain ⟨rule, hrule, hissue⟩ := List.mem_flatMap.1 hissue
    have hmem : rule ∈ language.rules := List.mem_of_mem_filter hrule
    unfold Issue.ofRule at hissue
    split at hissue
    · cases hissue
    · obtain ⟨m, hm, rfl⟩ := List.mem_map.1 hissue
      have hfits := findAll_fits hm
      have hwidth := hfits.width_le
      have hle := hfits.last_le
      have hfirst := first_of_mem_readings _ _ hm
      refine ⟨rule, ?_, rfl, m.first, by omega, m.stop, ?_⟩
      · rw [← filter_rules, List.mem_filter]
        exact ⟨hmem, List.contains_iff_mem.2 hid⟩
      · rw [← hfits.start_eq, mem_stops]
        exact ⟨_, List.mem_of_mem_head? hfirst, rfl⟩
  · exact absurd hid (ruleId_ofMetrics hissue)

/-- What the rules on nested loops look for. -/
theorem pattern_of_loopRule {rule : Rule}
    (h : rule ∈ (if language.usesBraces then Rules.loops else Rules.indented.take 2)) :
    (rule.id = "triple-nested-loops" → language.usesBraces = true ∧ rule.pattern
      = Rules.forLoop ++ Rules.beforeClose ++ Rules.forLoop ++ Rules.beforeClose ++ Rules.forLoop) ∧
    (rule.id = "nested-loops" → language.usesBraces = true ∧ rule.pattern
      = Rules.forLoop ++ Rules.beforeClose ++ Rules.forLoop ++ Rules.beforeClose ++ lit "\x7d") ∧
    (rule.id = "py-triple-nested-loops" →
      language.usesBraces = false ∧ rule.pattern = IndentedLoop.triple) ∧
    (rule.id = "py-nested-loops" →
      language.usesBraces = false ∧ rule.pattern = IndentedLoop.double) := by
  by_cases hbraces : language.usesBraces = true
  · rw [if_pos hbraces] at h
    simp only [Rules.loops, List.mem_cons, List.not_mem_nil, or_false] at h
    rcases h with rfl | rfl <;> simp [hbraces]
  · rw [if_neg hbraces] at h
    simp only [Rules.indented, List.take_succ_cons, List.take_zero, List.mem_cons, List.not_mem_nil,
      or_false] at h
    rcases h with rfl | rfl <;> simp [hbraces]

/-- **What a report says about nested loops, by rule and by time.** In the languages with braces the growth
of time is exactly how deep loops are directly nested, up to three. An issue of a rule on nested loops stands
for as many heads of counting loops, with no brace closed in between. Wherever every brace between such heads
opens a loop, the growth of time is at least quadratic, or cubic for three. Where indentation tells blocks the
rules and the estimate always agree. -/
theorem loop_rules_and_time (config : Config) (language : Language) (t source : Text)
    (bodies : List (Text × Text)) (lineOffset : Nat) :
    let report := ofPart config language t source bodies lineOffset
    (language.usesBraces = true → ∀ n ≤ 3,
      (n ≤ report.time.growth.rank ↔ ∃ l, l.length = n ∧ NestedLoops t l)) ∧
    ("nested-loops" ∈ report.reportedRules → (∃ heads, heads.length = 2 ∧ OpenLoops t heads) ∧
      ∀ heads, heads.length = 2 → OpenLoops t heads → LoopsBetween t heads →
        .quadratic ≤ report.time.growth) ∧
    ("triple-nested-loops" ∈ report.reportedRules → (∃ heads, heads.length = 3 ∧ OpenLoops t heads) ∧
      ∀ heads, heads.length = 3 → OpenLoops t heads → LoopsBetween t heads →
        report.time.growth = .cubic) ∧
    ("py-nested-loops" ∈ report.reportedRules → .quadratic ≤ report.time.growth) ∧
    ("py-triple-nested-loops" ∈ report.reportedRules → report.time.growth = .cubic) := by
  intro report
  have hgrowth : report.time.growth = (Estimate.ofTime language t).growth := rfl
  have hrank : language.usesBraces = true → ∀ n ≤ 3,
      (n ≤ report.time.growth.rank ↔ ∃ l, l.length = n ∧ NestedLoops t l) := by
    intro hbraces n hn
    rw [hgrowth, Estimate.growth_ofTime_braced hbraces, ← Estimate.bracedTime_eq]
    exact le_rank_bracedTime_iff hn
  have hopen_rank : language.usesBraces = true → ∀ heads, heads.length ≤ 3 → OpenLoops t heads →
      LoopsBetween t heads → heads.length ≤ report.time.growth.rank := by
    intro hbraces heads hlen hopen hloops
    exact (hrank hbraces heads.length hlen).2 (hopen.exists_nested hloops)
  refine ⟨hrank, fun h => ?_, fun h => ?_, fun h => ?_, fun h => ?_⟩
  · obtain ⟨rule, hrule, hid, i, hi, d, hd⟩ := exists_of_reported (by decide) h
    obtain ⟨hbraces, hpattern⟩ := (pattern_of_loopRule hrule).2.1 hid
    rw [hpattern] at hd
    obtain ⟨u, hu, -⟩ := (mem_stops_seq rfl).1 hd
    obtain ⟨v, hv, -⟩ := (mem_stops_seq rfl).1 hu
    obtain ⟨p, j, r, hopen, -, -⟩ := exists_openLoops_two hi hv
    refine ⟨⟨_, rfl, hopen⟩, fun heads hlen hopen hloops => ?_⟩
    have htwo := hopen_rank hbraces heads (by omega) hopen hloops
    rwa [hlen] at htwo
  · obtain ⟨rule, hrule, hid, i, hi, d, hd⟩ := exists_of_reported (by decide) h
    obtain ⟨hbraces, hpattern⟩ := (pattern_of_loopRule hrule).1 hid
    rw [hpattern] at hd
    refine ⟨exists_openLoops_three hi hd, fun heads hlen hopen hloops => Growth.cubic_le_iff.1 ?_⟩
    have hthree := hopen_rank hbraces heads (by omega) hopen hloops
    rwa [hlen] at hthree
  · obtain ⟨rule, hrule, hid, i, hi, d, hd⟩ := exists_of_reported (by decide) h
    obtain ⟨hbraces, hpattern⟩ := (pattern_of_loopRule hrule).2.2.2 hid
    rw [hpattern] at hd
    rw [hgrowth, Estimate.growth_ofTime_indented hbraces]
    exact Growth.quadratic_le_ofNesting_iff.2 (Or.inr ((foundIn_iff_stops _ _).2 ⟨i, hi, d, hd⟩))
  · obtain ⟨rule, hrule, hid, i, hi, d, hd⟩ := exists_of_reported (by decide) h
    obtain ⟨hbraces, hpattern⟩ := (pattern_of_loopRule hrule).2.2.1 hid
    rw [hpattern] at hd
    rw [hgrowth, Estimate.growth_ofTime_indented hbraces]
    exact Growth.ofNesting_eq_cubic_iff.2 ((foundIn_iff_stops _ _).2 ⟨i, hi, d, hd⟩)

theorem loop_rules_and_time_direct :
    let t := "for(a)\x7bfor(b)\x7b\x7d\x7d".toList
    (∀ heads, OpenLoops t heads → LoopsBetween t heads) ∧
      "nested-loops" ∈ (ofText .standard .javascript t).reportedRules ∧
      .quadratic ≤ (ofText .standard .javascript t).time.growth := by
  intro t
  -- the first brace is the only one with a head behind it, and it opens a loop
  have hbrace : LoopBrace t 6 := by
    have hgap : (Text.slice t 3 6).all (fun ch => ch != '{' && ch != '}') = true := by decide
    refine ⟨rfl, 0, 3, ⟨⟨"for", by decide, rfl, rfl⟩, fun k c hk => by omega, fun c hc => ?_⟩, by omega,
      fun ch hch => ?_⟩
    · obtain rfl : '(' = c := Option.some.inj hc
      decide
    · simpa using List.all_eq_true.1 hgap ch hch
  have hheads : ∀ i p, ForHead t i p → i ≤ 7 ∧ 6 ≤ p := by
    intro i p h
    have hopen : ∀ p < 6, t[p]? ≠ some '{' := by decide
    have hword : ∀ i < t.length, 7 < i → t[i]? ≠ some 'f' := by decide
    obtain ⟨w, hw, x, -, hp, hslice⟩ := h.head
    have hfirst : t[i + 0]? = some 'f' := by
      rw [← Text.getElem?_slice (j := p + 1) (by omega), hslice]
      simp only [List.mem_cons, List.not_mem_nil, or_false] at hw
      rcases hw with rfl | rfl <;> rfl
    constructor
    · by_contra hlt
      exact hword i (List.getElem?_eq_some_iff.1 hfirst).1 (by omega) hfirst
    · by_contra hlt
      exact hopen p (by omega) h.brace
  have hloops : ∀ heads, OpenLoops t heads → LoopsBetween t heads := by
    intro heads hopen a ha b hb q haq hqb _
    have hstart := (hheads _ _ (hopen.isHead b hb)).1
    have hend := (hheads _ _ (hopen.isHead a ha)).2
    obtain rfl : q = 6 := by omega
    exact hbrace
  have hreported : "nested-loops" ∈ (ofText .standard .javascript t).reportedRules := by decide +kernel
  obtain ⟨⟨heads, hlen, hopen⟩, htime⟩ :=
    (loop_rules_and_time .standard .javascript t t _ 0).2.1 hreported
  exact ⟨hloops, hreported, htime heads hlen hopen (hloops heads hopen)⟩

/-- Where a condition is open between two loops, the rule reports them and time is linear. -/
theorem nested_loops_reported_linear :
    let t := "for(a)\x7bif(b)\x7bfor(c)\x7b\x7d\x7d\x7d".toList
    "nested-loops" ∈ (ofText .standard .javascript t).reportedRules ∧
      (ofText .standard .javascript t).time.growth.inNotation = "O(n)" := by
  decide +kernel

end PerformanceReport

end CodeSurvey
