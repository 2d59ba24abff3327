import CodeSurvey.Proofs.Performance.LoopChain

/-!
# Forests of loops

Where braces tell blocks, the estimate of time is told by patterns that ask for loop words and for braces. For texts
that are made of loops in one another and of plain text around them, this says how the estimate depends on the
loops alone.

* `LoopForest`: plain text and loops in a row, with a forest again in the block of each loop.
* `LoopForest.bodies`, `allBodies`: the loops of a forest, told by what stands in their blocks.
* `LoopForest.depth`, `firstDepth`: how deep loops are nested, and how deep the first loops of all are.
* `LoopForest.found_render_iff`: which chains of loops start in a forest.
* `LoopForest.growth_render`: the estimate for a forest.
-/

namespace CodeSurvey

open BracedLoop
open Text (EndsApart BeginsApart FreeOfLoops endsApart_append_cons endsApart_of_append headKeywords
  isWord_of_mem_loopKeywords mem_loopKeywords_of_head)

/-! ## Plain text -/

/-- **Text without braces and without loop words.** -/
structure PlainText where
  chars : Text
  noBraces : NoBraces chars
  noLoopWords : FreeOfLoops chars

/-- Plain text in front of a loop, which does not run into the word of the loop. -/
structure LoopLead extends PlainText where
  endsApart : EndsApart chars

/-- Plain text between the word of a loop and its block, which the word does not run into. -/
structure LoopHead extends PlainText where
  beginsApart : BeginsApart chars

section

variable {u v w x z q r : Text}

/-- **No loop starts in plain text**: what looks like one starts behind it. -/
theorem PlainText.eq_nil_of_opensLoop (p : PlainText) (hp : p.chars = u ++ v) (hu : EndsApart u)
    (hedge : EndsApart p.chars ∨ BeginsApart q) (h : OpensLoop (v ++ q) r) : v = [] := by
  obtain ⟨w, hw, heq, hr⟩ := h
  have hword := (isWord_of_mem_loopKeywords hw).2
  have hwhole : ∀ {z : Text}, v = w.toList ++ z → ¬ BeginsApart z := by
    intro z hv hz
    have hfree := p.noLoopWords
    rw [hp] at hfree
    exact hfree.not_word hu hw hz hv
  rcases List.append_eq_append_iff.1 heq with ⟨z, hwz, hq⟩ | ⟨z, hvz, hrz⟩
  · cases z with
    | nil =>
      have hnil : BeginsApart [] := by decide
      exact absurd hnil (hwhole (by simpa using hwz.symm))
    | cons ch z =>
      rcases hedge with hends | hbegins
      · -- the text would end in a character of the word
        rcases List.eq_nil_or_concat v with rfl | ⟨v, d, rfl⟩
        · rfl
        · have hd : Text.isWord d = false := hends d (by simp [hp])
          rw [hword d (by simp [hwz])] at hd
          cases hd
      · have hch : Text.isWord ch = false := hbegins ch (by simp [hq])
        rw [hword ch (by simp [hwz])] at hch
        cases hch
  · refine absurd (fun ch hch => hr ch ?_) (hwhole hvz)
    rw [hrz, List.head?_append, Option.mem_def.1 hch]
    rfl

/-- Plain text in round brackets, between the word of a loop and its block. -/
def LoopHead.round (p : PlainText) : LoopHead where
  chars := '(' :: (p.chars ++ [')'])
  noBraces := by
    obtain ⟨hopen, hclose⟩ := p.noBraces
    exact ⟨by simp [hopen], by simp [hclose]⟩
  noLoopWords := by
    intro w hw
    have hround : Text.isWord '(' = false ∧ Text.isWord ')' = false := by decide
    have hne := (isWord_of_mem_loopKeywords hw).1
    rw [← List.nil_append ('(' :: _), Text.splitWhen_append (by simp [hround.1]),
      Text.splitWhen_append (by simp [hround.2])]
    simp [Text.splitWhen, hne, p.noLoopWords w hw]
  beginsApart := by
    intro ch hch
    rw [← Option.some.inj hch]
    decide

end

/-! ## Forests -/

/-- **Plain text and loops in a row**, with a forest again in the block of each loop. -/
inductive LoopForest where
  | text (x : PlainText)
  | loop (lead : LoopLead) (word : { w : String // w ∈ headKeywords }) (head : LoopHead)
      (body rest : LoopForest)

namespace LoopForest

variable {F b : LoopForest} {n : Nat} {u y z r post : Text}

/-- The text of a forest. -/
def render : LoopForest → Text
  | text x => x.chars
  | loop lead word head body rest =>
    lead.chars ++ (word.1.toList ++ (head.chars ++ '{' :: (body.render ++ '}' :: rest.render)))

/-- The loops that stand directly in a forest, in order, each told by what is in its block. -/
def bodies : LoopForest → List LoopForest
  | text _ => []
  | loop _ _ _ body rest => body :: rest.bodies

/-- The loops of a forest, those in the blocks of others included. -/
def allBodies : LoopForest → List LoopForest
  | text _ => []
  | loop _ _ _ body rest => body :: (body.allBodies ++ rest.allBodies)

/-- How deep loops are nested. -/
def depth : LoopForest → Nat
  | text _ => 0
  | loop _ _ _ body rest => max (body.depth + 1) rest.depth

/-- How deep loops are nested if only the first loop counts, here and in every block. -/
def firstDepth : LoopForest → Nat
  | text _ => 0
  | loop _ _ _ body _ => body.firstDepth + 1

/-- What can stand behind a forest: nothing, or the end of the block around it. -/
def EndsBlock (post : Text) : Prop :=
  ∀ ch ∈ post.head?, ch = '}'

theorem EndsBlock.beginsApart (h : EndsBlock post) : BeginsApart post := by
  intro ch hch
  rw [h ch hch]
  decide

theorem endsBlock_cons (x : Text) : EndsBlock ('}' :: x) := by
  intro ch hch
  exact (Option.some.inj hch).symm

section

variable (lead : LoopLead) (word : { w : String // w ∈ headKeywords }) (head : LoopHead)

theorem beginsApart_head : BeginsApart (head.chars ++ '{' :: z) := by
  cases hchars : head.chars with
  | nil =>
    intro ch hch
    rw [← Option.some.inj hch]
    decide
  | cons d x =>
    have hd := head.beginsApart
    rw [hchars] at hd
    exact hd

theorem opensLoop_word : OpensLoop (word.1.toList ++ (head.chars ++ '{' :: z)) (head.chars ++ '{' :: z) := by
  exact ⟨word.1, mem_loopKeywords_of_head word.2, rfl, beginsApart_head head⟩

/-- **Up to the block of a loop there is one loop word, the one of the loop.** -/
theorem eq_lead_of_opensLoop (heq : lead.chars ++ (word.1.toList ++ (head.chars ++ '{' :: z)) = u ++ y)
    (hu : EndsApart u) (hbrace : '{' ∉ u) (hopens : OpensLoop y r) :
    u = lead.chars ∧ y = word.1.toList ++ (head.chars ++ '{' :: z) := by
  have hopen : BeginsApart ('{' :: z) := by
    intro ch hch
    rw [← Option.some.inj hch]
    decide
  rcases List.append_eq_append_iff.1 heq with ⟨u, rfl, hrest⟩ | ⟨v, hlead, rfl⟩
  · rcases List.append_eq_append_iff.1 hrest with ⟨u, rfl, hhead⟩ | ⟨v, hword, rfl⟩
    · -- behind the word of the loop
      rw [List.mem_append, not_or, List.mem_append, not_or] at hbrace
      obtain ⟨v, hv, rfl⟩ := Text.exists_eq_append hhead hbrace.2.2
      have hapart : EndsApart u := endsApart_of_append (endsApart_of_append hu)
      have hnil := head.eq_nil_of_opensLoop hv hapart (Or.inr hopen) hopens
      rw [hnil, List.nil_append] at hopens
      exact absurd hopens (not_opensLoop hopen)
    · -- in the middle of the word
      rcases List.eq_nil_or_concat u with rfl | ⟨u, d, rfl⟩
      · rw [List.nil_append] at hword
        exact ⟨by simp, by rw [hword]⟩
      · have hd : Text.isWord d = false := hu d (by simp)
        rw [(isWord_of_mem_loopKeywords (mem_loopKeywords_of_head word.2)).2 d (by simp [hword])] at hd
        cases hd
  · have hnil := lead.eq_nil_of_opensLoop hlead hu (Or.inl lead.endsApart) hopens
    rw [hnil] at hlead ⊢
    exact ⟨by simp [hlead], rfl⟩

theorem loopChain_loop_succ : LoopChain (n + 1) (word.1.toList ++ (head.chars ++ '{' :: z)) ↔ Reaches n z := by
  rw [loopChain_succ]
  constructor
  · rintro ⟨x, z', hopens, hbrace, hreaches⟩
    have heq : head.chars ++ '{' :: z = x ++ '{' :: z' :=
      (opensLoop_word word head).rest_eq.trans hopens.rest_eq.symm
    obtain ⟨v, hv, hrest⟩ := Text.exists_eq_append heq hbrace
    cases v with
    | nil =>
      obtain rfl : z' = z := by simpa using hrest
      exact hreaches
    | cons d v =>
      obtain ⟨rfl, -⟩ : '{' = d ∧ z' = v ++ '{' :: z := by simpa using hrest
      exact absurd (by simp [hv]) head.noBraces.1
  · intro hreaches
    exact ⟨head.chars, z, opensLoop_word word head, head.noBraces.1, hreaches⟩

/-- A chain that starts at the loop. -/
theorem loopChain_loop_iff {m : Nat} (hz : ∀ n, Reaches n z ↔ n < m) :
    LoopChain n (word.1.toList ++ (head.chars ++ '{' :: z)) ↔ n ≤ m := by
  cases n with
  | zero => exact ⟨fun _ => Nat.zero_le _, fun _ => ⟨_, opensLoop_word word head⟩⟩
  | succ n => rw [loopChain_loop_succ, hz n, Nat.lt_iff_add_one_le]

/-- **In front of the block of a loop one chain starts, that of the loop itself.** -/
theorem exists_chain_in_front_iff {m : Nat} (hz : ∀ n, Reaches n z ↔ n < m) :
    (∃ u v, lead.chars ++ (word.1.toList ++ head.chars) = u ++ v ∧ EndsApart u ∧
      LoopChain n (v ++ '{' :: z)) ↔ n ≤ m := by
  have hbrace : '{' ∉ lead.chars ++ (word.1.toList ++ head.chars) := by
    have hword : '{' ∉ word.1.toList := by
      intro hmem
      exact absurd ((isWord_of_mem_loopKeywords (mem_loopKeywords_of_head word.2)).2 _ hmem) (by decide)
    simp [lead.noBraces.1, hword, head.noBraces.1]
  rw [← loopChain_loop_iff word head hz]
  constructor
  · rintro ⟨u, v, heq, hu, hchain⟩
    obtain ⟨r, hopens⟩ := hchain.opens
    rw [heq, List.mem_append, not_or] at hbrace
    have hwhole : lead.chars ++ (word.1.toList ++ (head.chars ++ '{' :: z)) = u ++ (v ++ '{' :: z) := by
      rw [← List.append_assoc u, ← heq]
      simp
    exact (eq_lead_of_opensLoop lead word head hwhole hu hbrace.1 hopens).2 ▸ hchain
  · intro hchain
    exact ⟨lead.chars, _, rfl, lead.endsApart, by simpa using hchain⟩

end

theorem not_reaches_text (x : PlainText) (hpost : EndsBlock post) : ¬ Reaches n (x.chars ++ post) := by
  rintro ⟨gap, y, heq, hgap, hapart, hchain⟩
  obtain ⟨r, hopens⟩ := hchain.opens
  rcases List.append_eq_append_iff.1 heq with ⟨v, rfl, hv⟩ | ⟨v, hv, rfl⟩
  · cases v with
    | nil =>
      rw [List.nil_append] at hv
      exact not_opensLoop hpost.beginsApart (hv ▸ hopens)
    | cons d v =>
      have hd : d = '}' := hpost d (by simp [hv])
      exact hgap.2 (by simp [hd])
  · have hnil := x.eq_nil_of_opensLoop hv hapart (Or.inr hpost.beginsApart) hopens
    rw [hnil, List.nil_append] at hopens
    exact not_opensLoop hpost.beginsApart hopens

/-- **At the start of a forest, first loops are reached.** -/
theorem reaches_render_iff (F : LoopForest) : ∀ {n : Nat} {post : Text}, EndsBlock post →
    (Reaches n (F.render ++ post) ↔ n < F.firstDepth) := by
  induction F with
  | text x =>
    intro n post hpost
    exact ⟨fun h => absurd h (not_reaches_text x hpost), fun h => absurd h (Nat.not_lt_zero n)⟩
  | loop lead word head body rest ih _ =>
    intro n post hpost
    have hbody := fun n => ih (n := n) (endsBlock_cons (rest.render ++ post))
    have htext : (loop lead word head body rest).render ++ post = lead.chars ++ (word.1.toList
        ++ (head.chars ++ '{' :: (body.render ++ '}' :: (rest.render ++ post)))) := by
      simp [render]
    rw [htext, firstDepth, Nat.lt_succ_iff, ← loopChain_loop_iff word head hbody]
    constructor
    · rintro ⟨gap, y, heq, hgap, hapart, hchain⟩
      obtain ⟨r, hopens⟩ := hchain.opens
      obtain ⟨-, hy⟩ := eq_lead_of_opensLoop lead word head heq hapart hgap.1 hopens
      exact hy ▸ hchain
    · intro hchain
      exact ⟨lead.chars, _, rfl, lead.noBraces, lead.endsApart, hchain⟩

theorem not_found_of_nil : ¬ Found n [] := by
  rintro ⟨u, x, heq, -, hchain⟩
  obtain ⟨rfl, rfl⟩ := List.append_eq_nil_iff.1 heq.symm
  exact not_loopChain (by decide) hchain

theorem found_text_iff (x : PlainText) (hpost : EndsBlock post) : Found n (x.chars ++ post) ↔ Found n post := by
  constructor
  · rintro ⟨u, y, heq, hu, hchain⟩
    rcases List.append_eq_append_iff.1 heq with ⟨v, rfl, rfl⟩ | ⟨v, hv, rfl⟩
    · exact ⟨v, y, rfl, endsApart_of_append hu, hchain⟩
    · obtain ⟨r, hopens⟩ := hchain.opens
      have hnil := x.eq_nil_of_opensLoop hv hu (Or.inr hpost.beginsApart) hopens
      rw [hnil] at hchain
      exact absurd hchain (not_loopChain hpost.beginsApart)
  · rintro ⟨u, y, rfl, hu, hchain⟩
    cases u with
    | nil => exact absurd hchain (not_loopChain hpost.beginsApart)
    | cons d u =>
      have hd : d = '}' := hpost d rfl
      have hapart : Text.isWord d = false := by
        rw [hd]
        decide
      refine ⟨x.chars ++ d :: u, y, by simp, (endsApart_append_cons hapart).2 ?_, hchain⟩
      exact endsApart_of_append (a := [d]) hu

/-- **In a forest, every loop starts a chain of first loops**, and there are no other chains. -/
theorem found_render_iff (F : LoopForest) : ∀ {post : Text}, EndsBlock post →
    (Found n (F.render ++ post) ↔ (∃ b ∈ F.allBodies, n ≤ b.firstDepth) ∨ Found n post) := by
  induction F with
  | text x =>
    intro post hpost
    rw [render, found_text_iff x hpost]
    simp [allBodies]
  | loop lead word head body rest ihbody ihrest =>
    intro post hpost
    have hopen : Text.isWord '{' = false := by decide
    have hclose : Text.isWord '}' = false := by decide
    have hbody := fun n => reaches_render_iff body (n := n) (endsBlock_cons (rest.render ++ post))
    have htext : (loop lead word head body rest).render ++ post = (lead.chars ++ (word.1.toList ++ head.chars))
        ++ '{' :: (body.render ++ '}' :: (rest.render ++ post)) := by
      simp [render]
    -- the text is cut at the two braces of the loop
    rw [htext, found_append_cons hopen, exists_chain_in_front_iff lead word head hbody,
      ihbody (endsBlock_cons _), found_cons hclose, ihrest hpost]
    simp only [allBodies, List.mem_cons, List.mem_append, or_and_right, exists_or, exists_eq_left, or_assoc]

/-! ## How deep loops are nested -/

theorem mem_allBodies_of_mem (h : b ∈ F.bodies) : b ∈ F.allBodies := by
  induction F with
  | text x => cases h
  | loop lead word head body rest _ ih =>
    rw [bodies, List.mem_cons] at h
    rw [allBodies, List.mem_cons, List.mem_append]
    exact h.imp_right fun h => Or.inr (ih h)

theorem mem_allBodies_trans {d : LoopForest} (hb : b ∈ F.allBodies) (hd : d ∈ b.allBodies) :
    d ∈ F.allBodies := by
  induction F with
  | text x => cases hb
  | loop lead word head body rest ihbody ihrest =>
    rw [allBodies, List.mem_cons, List.mem_append] at hb ⊢
    rcases hb with rfl | hb | hb
    · exact Or.inr (Or.inl hd)
    · exact Or.inr (Or.inl (ihbody hb))
    · exact Or.inr (Or.inr (ihrest hb))

theorem allBodies_eq_nil_iff : F.allBodies = [] ↔ F.bodies = [] := by
  cases F <;> simp [allBodies, bodies]

/-- The first loop of a forest, and the first loops in its block. -/
theorem lt_firstDepth_iff : n < F.firstDepth ↔ ∃ b, F.bodies.head? = some b ∧ n ≤ b.firstDepth := by
  cases F with
  | text x => simp [firstDepth, bodies]
  | loop lead word head body rest =>
    rw [firstDepth, Nat.lt_succ_iff]
    simp [bodies]

theorem firstDepth_pos_iff : 0 < F.firstDepth ↔ F.bodies ≠ [] := by
  cases F <;> simp [firstDepth, bodies]

theorem firstDepth_le_depth (F : LoopForest) : F.firstDepth ≤ F.depth := by
  induction F with
  | text x => exact le_rfl
  | loop lead word head body rest ih _ =>
    rw [firstDepth, depth]
    omega

theorem depth_lt_of_mem (h : b ∈ F.allBodies) : b.depth < F.depth := by
  induction F with
  | text x => cases h
  | loop lead word head body rest ihbody ihrest =>
    rw [allBodies, List.mem_cons, List.mem_append] at h
    rw [depth]
    rcases h with rfl | h | h
    · omega
    · have := ihbody h
      omega
    · have := ihrest h
      omega

/-- The deepest loops of a forest are in one of the loops that stand directly in it. -/
theorem exists_depth_eq (h : F.bodies ≠ []) : ∃ b ∈ F.bodies, F.depth = b.depth + 1 := by
  induction F with
  | text x => exact absurd rfl h
  | loop lead word head body rest _ ih =>
    rw [bodies, depth]
    -- either the first loop is the deepest one, or the others hold it
    by_cases hle : rest.depth ≤ body.depth + 1
    · exact ⟨body, List.mem_cons_self, by omega⟩
    · have hrest : rest.bodies ≠ [] := by
        intro hnil
        cases rest with
        | text x => exact hle (Nat.zero_le _)
        | loop => cases hnil
      obtain ⟨b, hb, hdepth⟩ := ih hrest
      exact ⟨b, List.mem_cons_of_mem _ hb, by omega⟩

/-- Where every loop holds at most one loop, first loops are all loops. -/
theorem firstDepth_eq_depth (h : ∀ b ∈ F.allBodies, b.bodies.length ≤ 1) (hF : F.bodies.length ≤ 1) :
    F.firstDepth = F.depth := by
  induction F with
  | text x => rfl
  | loop lead word head body rest ih _ =>
    have hbody : body.firstDepth = body.depth :=
      ih (fun b hb => h b (mem_allBodies_trans List.mem_cons_self hb)) (h body List.mem_cons_self)
    have hrest : rest.depth = 0 := by
      cases rest with
      | text x => rfl
      | loop => simp [bodies] at hF
    rw [firstDepth, depth, hbody, hrest]
    omega

/-- Where the loops of a forest hold no loops, there are no others. -/
theorem bodies_eq_nil_of_row (h : ∀ b ∈ F.bodies, b.bodies = []) (hb : b ∈ F.allBodies) : b.bodies = [] := by
  induction F with
  | text x => cases hb
  | loop lead word head body rest _ ih =>
    have hbody := h body List.mem_cons_self
    rw [allBodies, List.mem_cons, List.mem_append, allBodies_eq_nil_iff.2 hbody] at hb
    rcases hb with rfl | hb | hb
    · exact hbody
    · cases hb
    · exact ih (fun d hd => h d (List.mem_cons_of_mem _ hd)) hb

/-! ## The estimate -/

/-- **The growth of time for a forest** is the longest chain of first loops that starts at some loop, up to
three. -/
theorem lt_rank_iff {language : Language} (h : language.usesBraces = true) (F : LoopForest) (hn : n < 3) :
    n < (Estimate.ofTime language F.render).growth.rank ↔ ∃ b ∈ F.allBodies, n ≤ b.firstDepth := by
  rw [Estimate.growth_ofTime_braced h, ← Estimate.bracedTime_eq, Nat.lt_iff_add_one_le,
    le_rank_bracedTime_iff hn, exists_nestedLoops_iff]
  have hfound : Found n (F.render ++ []) ↔ _ := found_render_iff F (by simp [EndsBlock])
  rw [List.append_nil] at hfound
  rw [hfound]
  exact or_iff_left not_found_of_nil

section

variable {language : Language} (h : language.usesBraces = true)
include h

theorem rank_le_depth (F : LoopForest) : (Estimate.ofTime language F.render).growth.rank ≤ F.depth := by
  have hle : (Estimate.ofTime language F.render).growth.rank ≤ 3 := Growth.le_cubic _
  by_cases hzero : (Estimate.ofTime language F.render).growth.rank = 0
  · omega
  · obtain ⟨b, hb, hfirst⟩ := (lt_rank_iff h F
      (n := (Estimate.ofTime language F.render).growth.rank - 1) (by omega)).1 (by omega)
    have hdepth := depth_lt_of_mem hb
    have hbody := b.firstDepth_le_depth
    omega

/-- Where no loop holds two loops, the growth of time is the depth of nesting. -/
theorem min_depth_le_rank (hnarrow : ∀ b ∈ F.allBodies, b.bodies.length ≤ 1) :
    min 3 F.depth ≤ (Estimate.ofTime language F.render).growth.rank := by
  by_cases hnil : F.bodies = []
  · cases F with
    | text x => exact Nat.zero_le _
    | loop => cases hnil
  · obtain ⟨b, hb, hdepth⟩ := exists_depth_eq hnil
    have hmem := mem_allBodies_of_mem hb
    have hfirst : b.firstDepth = b.depth :=
      firstDepth_eq_depth (fun d hd => hnarrow d (mem_allBodies_trans hmem hd)) (hnarrow b hmem)
    have hlt := (lt_rank_iff h F (n := min 3 F.depth - 1) (by omega)).2 ⟨b, hmem, by omega⟩
    omega

end

/-- **The estimate of time for a forest of loops.** Growth is constant exactly if there is no loop, at least
quadratic exactly if some loop stands directly in another, and cubic exactly if some loop has a first loop that
has a first loop. So it is never more than the depth of nesting, it is linear for loops in a row that hold no
loops, and it is the depth of nesting, up to three, where no loop holds two loops. -/
theorem growth_render {language : Language} (h : language.usesBraces = true) (F : LoopForest) :
    let growth := (Estimate.ofTime language F.render).growth
    (growth = .constant ↔ F.bodies = []) ∧
      (.quadratic ≤ growth ↔ ∃ b ∈ F.allBodies, b.bodies ≠ []) ∧
      (growth = .cubic ↔ ∃ a ∈ F.allBodies, ∃ b c, a.bodies.head? = some b ∧ b.bodies.head? = some c) ∧
      growth.rank ≤ min 3 F.depth ∧
      (F.bodies ≠ [] → (∀ b ∈ F.bodies, b.bodies = []) → growth = .linear) ∧
      ((∀ b ∈ F.allBodies, b.bodies.length ≤ 1) → growth.rank = min 3 F.depth) := by
  intro growth
  have hle : growth.rank ≤ 3 := growth.le_cubic
  have hdepth : growth.rank ≤ F.depth := rank_le_depth h F
  have hnone : growth.rank = 0 ↔ F.bodies = [] := by
    rw [← Nat.le_zero, ← Nat.not_lt, lt_rank_iff h F (by decide), ← allBodies_eq_nil_iff]
    simp [List.eq_nil_iff_forall_not_mem]
  have hinner : 1 < growth.rank ↔ ∃ b ∈ F.allBodies, b.bodies ≠ [] := by
    rw [lt_rank_iff h F (by decide)]
    exact exists_congr fun b => and_congr_right fun _ => firstDepth_pos_iff
  have hchain : 2 < growth.rank ↔
      ∃ a ∈ F.allBodies, ∃ b c, a.bodies.head? = some b ∧ b.bodies.head? = some c := by
    rw [lt_rank_iff h F (by decide)]
    refine exists_congr fun a => and_congr_right fun _ => ?_
    rw [← Nat.lt_iff_add_one_le, lt_firstDepth_iff]
    refine exists_congr fun b => ?_
    rw [← Nat.lt_iff_add_one_le, lt_firstDepth_iff]
    simp
  have hlevel : ∀ g : Growth, growth = g ↔ growth.rank = g.rank := fun g => Growth.rank_injective.eq_iff.symm
  refine ⟨?_, hinner, ?_, by omega, ?_, ?_⟩
  · rw [hlevel]
    exact hnone
  · rw [hlevel, ← hchain]
    show growth.rank = 3 ↔ _
    omega
  · intro hne hrow
    have hpos : growth.rank ≠ 0 := fun hzero => hne (hnone.1 hzero)
    have hflat : ¬ 1 < growth.rank := by
      rw [hinner]
      rintro ⟨b, hb, hbodies⟩
      exact hbodies (bodies_eq_nil_of_row hrow hb)
    rw [hlevel]
    show growth.rank = 1
    omega
  · intro hnarrow
    have hmin : min 3 F.depth ≤ growth.rank := min_depth_le_rank h hnarrow
    omega

/-- Two loops in a loop, of which the second holds a loop again: three deep, and yet not cubic. -/
theorem growth_render_second :
    let empty : PlainText := ⟨[], by decide, by decide⟩
    let lead : LoopLead := ⟨⟨"do_it(); ".toList, by decide, by decide +kernel⟩, by decide +kernel⟩
    let head : LoopHead := .round ⟨"a < b".toList, by decide, by decide +kernel⟩
    let leaf : LoopForest := .loop lead ⟨"for", by decide⟩ head (.text empty) (.text empty)
    let second : LoopForest := .loop lead ⟨"for", by decide⟩ head leaf (.text empty)
    let first : LoopForest := .loop lead ⟨"foreach", by decide⟩ head (.text empty) second
    let F : LoopForest := .loop lead ⟨"while", by decide⟩ head first (.text empty)
    Language.usesBraces .java = true ∧ F.depth = 3 ∧ (Estimate.ofTime .java F.render).growth = .quadratic := by
  intro empty lead head leaf second first F
  obtain ⟨-, hquadratic, hcubic, -⟩ := growth_render (show Language.usesBraces .java = true from rfl) F
  have hmem : F.allBodies = [first, .text empty, leaf, .text empty] := rfl
  have hle : .quadratic ≤ (Estimate.ofTime .java F.render).growth :=
    hquadratic.2 ⟨first, by simp [hmem], List.cons_ne_nil _ _⟩
  have hne : (Estimate.ofTime .java F.render).growth ≠ .cubic := by
    rw [ne_eq, hcubic, hmem]
    rintro ⟨a, ha, b, c, hb, hc⟩
    simp only [List.mem_cons, List.not_mem_nil, or_false] at ha
    -- the first loop in `first` is empty, and so is the one in `leaf`
    rcases ha with rfl | rfl | rfl | rfl
    · obtain rfl : LoopForest.text empty = b := Option.some.inj hb
      cases hc
    · cases hb
    · obtain rfl : LoopForest.text empty = b := Option.some.inj hb
      cases hc
    · cases hb
  refine ⟨rfl, rfl, ?_⟩
  revert hle hne
  generalize (Estimate.ofTime .java F.render).growth = g
  cases g <;> decide

end LoopForest

end CodeSurvey
