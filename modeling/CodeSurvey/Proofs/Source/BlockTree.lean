import Mathlib.Order.Interval.Finset.Nat
import CodeSurvey.Proofs.Source.BlockEnd
import CodeSurvey.Proofs.Source.IndentedBody

/-!
# Blocks form a tree

The block of every function is looked for on its own, and still no two blocks of one text cross. Between braces
this is so because what stands between a brace and the one that closes it is a brace word: a brace that opens in
it also closes in it. Where indentation tells blocks, the lines of an inner body are indented deeper than the
line of its signature, which is indented at least as deep as the outer body.

* `IsEnclosed.stop_le_of_lt`: a block in braces that starts inside another ends inside it.
* `BodyLines.last_le`: an indented body that starts inside another ends inside it.
* `Routine.braced_tree`: blocks in braces are equal, disjoint, or one contains the other.
* `Routine.indented_tree`: a function that starts behind another comes behind it or lies in its body.
-/

namespace CodeSurvey

namespace Block

/-! ## Braces -/

section Braces

variable {t x : Text} {a b : Block} {i j n p q : Nat}

/-- Where more braces close than open, one closes first that was not opened. -/
theorem exists_unopened (x : Text) : ∀ depth : Int, 0 ≤ depth → depth + balance x < 0 →
    ∃ n, x[n]? = some '}' ∧ depth + balance (x.take n) = 0 := by
  induction x with
  | nil =>
    intro depth hpos hneg
    have hnil : balance [] = 0 := by decide
    omega
  | cons c x ih =>
    intro depth hpos hneg
    rw [balance_cons] at hneg
    by_cases hhere : c = '}' ∧ depth = 0
    · obtain ⟨rfl, rfl⟩ := hhere
      exact ⟨0, rfl, rfl⟩
    · have hstep : 0 ≤ depth + balance [c] := by
        rw [balance_singleton]
        split
        · omega
        · split
          · rename_i hc
            have : depth ≠ 0 := fun h => hhere ⟨hc, h⟩
            omega
          · omega
      obtain ⟨n, hn, hzero⟩ := ih (depth + balance [c]) hstep (by omega)
      refine ⟨n + 1, hn, ?_⟩
      rw [List.take_succ_cons, balance_cons]
      omega

/-- **A brace that opens in a brace word also closes in it.** -/
theorem BraceWord.exists_closes (hword : BraceWord (Text.slice t i j)) (hi : i ≤ p) (hj : p < j)
    (hopen : t[p]? = some '{') : ∃ k, k < j ∧ Closes t p k := by
  have hlt := (List.getElem?_eq_some_iff.1 hopen).1
  obtain ⟨n, rfl⟩ := Nat.exists_eq_add_of_le hi
  obtain ⟨l, rfl⟩ := Nat.exists_eq_add_of_lt hj
  -- the word is cut at the brace
  have hsplit : Text.slice t i (i + n + l + 1)
      = Text.slice t i (i + n) ++ '{' :: (t.drop (i + n + 1)).take l := by
    have hdrop : t.drop (i + n) = '{' :: t.drop (i + n + 1) := by
      rw [List.drop_eq_getElem_cons hlt, (List.getElem?_eq_some_iff.1 hopen).2]
    rw [Text.slice, Text.slice, show i + n + l + 1 - i = n + (l + 1) by omega, List.take_add,
      Nat.add_sub_cancel_left, List.drop_drop, hdrop, List.take_succ_cons]
  have hbefore : 0 ≤ balance (Text.slice t i (i + n)) := by
    have := hword.prefixes _ (hsplit ▸ List.prefix_append _ _)
    unfold balance
    omega
  have htotal := (balance_eq_zero_iff _).2 hword.total
  rw [hsplit, balance_append, balance_cons] at htotal
  have hbrace : balance ['{'] = 1 := by decide
  obtain ⟨k, hk, hzero⟩ := exists_unopened ((t.drop (i + n + 1)).take l) 0 (Int.le_refl 0) (by omega)
  have hkl : k < l := by
    have := (List.getElem?_eq_some_iff.1 hk).1
    rw [List.length_take] at this
    omega
  refine ⟨i + n + 1 + k, by omega, (closes_open_iff hopen).2 ⟨?_, ?_⟩⟩
  · rwa [List.getElem?_take_of_lt hkl] at hk
  · rwa [List.take_take, Nat.min_eq_left (Nat.le_of_lt hkl), Int.zero_add] at hzero

/-- The block behind an opening brace, by the search for the brace that closes it. -/
theorem IsEnclosed.matching (h : b.IsEnclosed t p) :
    matchingBrace? t (b.bodyStart - 1) = some b.bodyEnd ∧ b.stop = b.bodyEnd + 1 ∨
      matchingBrace? t (b.bodyStart - 1) = none ∧ b.bodyEnd = t.length ∧ b.stop = t.length := by
  have hpos : b.bodyStart - 1 + 1 = b.bodyStart := by
    have := h.stop_lt
    omega
  rcases h.close with ⟨hle, hclose, hstop, hword⟩ | ⟨hnone, hend, hstop⟩
  · refine Or.inl ⟨?_, hstop⟩
    rw [matchingBrace?_eq_some_iff, closes_first_iff h.opener, hpos]
    exact ⟨by omega, hclose, hword⟩
  · refine Or.inr ⟨?_, hend, hstop⟩
    cases hmatch : matchingBrace? t (b.bodyStart - 1) with
    | none => rfl
    | some j =>
      rw [matchingBrace?_eq_some_iff, closes_first_iff h.opener, hpos] at hmatch
      exact absurd hmatch.2.2 (hnone j (by omega) hmatch.2.1)

theorem IsEnclosed.stop_le (h : b.IsEnclosed t p) : b.stop ≤ t.length := by
  rcases h.close with ⟨-, hclose, hstop, -⟩ | ⟨-, -, hstop⟩
  · have := (List.getElem?_eq_some_iff.1 hclose).1
    omega
  · omega

/-- Blocks behind the same brace are the same. -/
theorem IsEnclosed.eq_of_start (ha : a.IsEnclosed t p) (hb : b.IsEnclosed t q)
    (h : a.bodyStart = b.bodyStart) : a = b := by
  obtain ⟨aStart, aEnd, aStop⟩ := a
  obtain ⟨bStart, bEnd, bStop⟩ := b
  have hma := ha.matching
  have hmb := hb.matching
  simp only at h hma hmb
  subst h
  rcases hma with ⟨hfound, rfl⟩ | ⟨hfound, rfl, rfl⟩
  · rw [hfound] at hmb
    obtain ⟨hend, rfl⟩ : some aEnd = some bEnd ∧ bStop = bEnd + 1 := by simpa using hmb
    rw [Option.some.inj hend]
  · rw [hfound] at hmb
    obtain ⟨rfl, rfl⟩ : bEnd = t.length ∧ bStop = t.length := by simpa using hmb
    rfl

/-- **A block in braces that starts inside another ends inside it.** -/
theorem IsEnclosed.stop_le_of_lt (ha : a.IsEnclosed t p) (hb : b.IsEnclosed t q)
    (hstart : a.bodyStart < b.bodyStart) (hinside : b.bodyStart ≤ a.stop) : b.stop ≤ a.stop := by
  rcases ha.close with ⟨-, hclose, hstop, hword⟩ | ⟨-, -, hstop⟩
  · -- the inner brace is not the one that closes the outer block
    have hne : b.bodyStart - 1 ≠ a.bodyEnd := by
      intro heq
      have hopen := hb.opener
      rw [heq, hclose] at hopen
      exact absurd hopen (by decide)
    obtain ⟨k, hk, hcloses⟩ := hword.exists_closes (p := b.bodyStart - 1) (by omega) (by omega) hb.opener
    rcases hb.matching with ⟨hfound, hstop'⟩ | ⟨hfound, -, -⟩
    · have hfirst := ((matchingBrace?_eq_some_iff _ _ _).1 hfound).2
      have hle : b.bodyEnd ≤ k := by
        by_contra hlt
        exact hfirst k (by omega) hcloses
      omega
    · exact absurd hcloses ((matchingBrace?_eq_none_iff _ _).1 hfound k)
  · have := hb.stop_le
    omega

/-- The places of a block from its opening brace to its end. -/
def enclosure (b : Block) : Finset Nat :=
  Finset.Ico (b.bodyStart - 1) b.stop

/-- A block that starts behind another is disjoint from it or a proper part of it. -/
theorem IsEnclosed.disjoint_or_ssubset (ha : a.IsEnclosed t p) (hb : b.IsEnclosed t q)
    (hstart : a.bodyStart < b.bodyStart) :
    Disjoint a.enclosure b.enclosure ∨ b.enclosure ⊂ a.enclosure := by
  have hpos := ha.stop_lt
  by_cases hinside : b.bodyStart ≤ a.stop
  · right
    have hstop := ha.stop_le_of_lt hb hstart hinside
    have hsub : b.enclosure ⊆ a.enclosure := Finset.Ico_subset_Ico (by omega) hstop
    refine (Finset.ssubset_iff_of_subset hsub).2 ⟨a.bodyStart - 1, ?_, ?_⟩
    · rw [enclosure, Finset.mem_Ico]
      omega
    · rw [enclosure, Finset.mem_Ico]
      omega
  · left
    rw [Finset.disjoint_left]
    intro n ha' hb'
    rw [enclosure, Finset.mem_Ico] at ha' hb'
    omega

theorem not_arrowExpression {start stop : Nat} (hbehind : ¬ ArrowAt t (skipBlanks t stop))
    (hwithin : ¬ ArrowAt t (stop - 2)) : ∀ place, ¬ ArrowExpression t start stop place := by
  intro place h
  cases h with
  | behind harrow hat _ _ =>
    rw [harrow.eq_skipBlanks] at hat
    exact hbehind hat
  | within _ hat _ _ _ => exact hwithin hat

end Braces

/-! ## Indentation -/

/-- **An indented body that starts inside another ends inside it**: behind a line of the outer body, every line of
the inner one is indented deeper than that line, so no line of it ends the outer body. -/
theorem BodyLines.last_le {ls : List Text} {outer width k m j i v width' k' m' j' : Nat}
    (h : BodyLines outer ls width k m j) (hsolid : SolidAt ls i v) (hij : i ≤ j)
    (h' : BodyLines v (ls.drop (i + 1)) width' k' m' j') : i + 1 + j' ≤ j := by
  have hjm := h.last.lt
  have hdeep : width ≤ v := h.deepUntil.deep i v (by omega) hsolid
  have hdeeper := h'.deeper
  by_contra hlt
  obtain ⟨u, hlast⟩ := h'.last.solid
  rw [solidAt_drop] at hlast
  have hm : m ≤ i + 1 + j' := by
    by_contra hbehind
    exact h.last.behind (i + 1 + j') u (by omega) (by omega) hlast
  rcases h.deepUntil.stop with rfl | ⟨w, hw, hstop⟩
  · have := hlast.lt
    omega
  · -- the line that ends the outer body is one of the inner body
    obtain ⟨n, rfl⟩ := Nat.exists_eq_add_of_le (show i + 1 ≤ m by omega)
    have hjm' := h'.last.lt
    have := h'.deepUntil.deep n w (by omega) ((solidAt_drop _).2 hstop)
    omega

end Block

namespace Routine

variable {language : Language} {t : Text} {a b f g r : Routine}

/-! ## Functions with blocks in braces -/

/-- The body of a function stands between braces: it is no expression behind an arrow, and it is not missing. -/
structure InBraces (r : Routine) (t : Text) : Prop where
  no_arrow : ∀ place, ¬ Block.ArrowExpression t r.offset r.signatureEnd place
  has_body : ¬ r.block.IsBodiless t r.signatureEnd

theorem InBraces.isEnclosed (hbraces : language.usesBraces = true) (hr : r ∈ scan language t)
    (h : r.InBraces t) : r.block.IsEnclosed t r.signatureEnd := by
  obtain ⟨m, -, hm⟩ := List.mem_filterMap.1 hr
  obtain ⟨hoffset, hend, hblock, -⟩ := ofMatch?_places hm
  have hbraced : r.block = Block.braced t r.offset r.signatureEnd := by
    rw [hblock, hoffset, hend, Language.block, if_pos hbraces]
  rcases Block.braced_cases t r.offset r.signatureEnd with ⟨place, harrow, -⟩ | ⟨-, henclosed | hnone⟩
  · exact absurd harrow (h.no_arrow place)
  · rwa [hbraced]
  · rw [← hbraced] at hnone
    exact absurd hnone h.has_body

/-- **Blocks in braces form a tree.** For every text, balanced or not, in a language with braces, and any two of
its functions with bodies between braces: the places from the opening brace to the end of the block are the same
for both, or have none in common, or those of one are a proper part of those of the other. -/
theorem braced_tree (hbraces : language.usesBraces = true) (ha : a ∈ scan language t)
    (hb : b ∈ scan language t) (hina : a.InBraces t) (hinb : b.InBraces t) :
    a.block = b.block ∨ Disjoint a.block.enclosure b.block.enclosure ∨
      a.block.enclosure ⊂ b.block.enclosure ∨ b.block.enclosure ⊂ a.block.enclosure := by
  have hea := hina.isEnclosed hbraces ha
  have heb := hinb.isEnclosed hbraces hb
  rcases Nat.lt_trichotomy a.block.bodyStart b.block.bodyStart with hlt | heq | hgt
  · rcases hea.disjoint_or_ssubset heb hlt with hdisjoint | hinside
    · exact Or.inr (Or.inl hdisjoint)
    · exact Or.inr (Or.inr (Or.inr hinside))
  · exact Or.inl (hea.eq_of_start heb heq)
  · rcases heb.disjoint_or_ssubset hea hgt with hdisjoint | hinside
    · exact Or.inr (Or.inl hdisjoint.symm)
    · exact Or.inr (Or.inr (Or.inl hinside))

/-- Three functions, of which the first has no body of its own and picks up the brace of the second, which is
never closed. -/
theorem braced_tree_unclosed :
    let t := "function f() function g() \x7b function h() \x7b \x7d".toList
    let f : Routine := ⟨['f'], [], 0, 12, ⟨27, 44, 44⟩, 1, 1⟩
    let h : Routine := ⟨['h'], [], 28, 40, ⟨42, 43, 44⟩, 1, 1⟩
    f ∈ scan .javascript t ∧ h ∈ scan .javascript t ∧ f.InBraces t ∧ h.InBraces t ∧
      h.block.enclosure ⊂ f.block.enclosure := by
  intro t f h
  have hf : f ∈ scan .javascript t := by decide +kernel
  have hh : h ∈ scan .javascript t := by decide +kernel
  have hinf : f.InBraces t :=
    ⟨Block.not_arrowExpression (by unfold Block.ArrowAt; decide) (by unfold Block.ArrowAt; decide), fun hnone =>
      absurd hnone.eq (by decide)⟩
  have hinh : h.InBraces t :=
    ⟨Block.not_arrowExpression (by unfold Block.ArrowAt; decide) (by unfold Block.ArrowAt; decide), fun hnone =>
      absurd hnone.eq (by decide)⟩
  refine ⟨hf, hh, hinf, hinh, ?_⟩
  rcases braced_tree rfl hf hh hinf hinh with heq | hdisjoint | hinside | hinside
  · exact absurd heq (by decide)
  · exact absurd hdisjoint (by decide)
  · exact absurd hinside (by decide)
  · exact hinside

/-! ## Functions with blocks told by indentation -/

/-- Of two functions, the signature of the one that starts first ends before the other starts. -/
theorem signatureEnd_le_of_lt (hf : f ∈ scan language t) (hg : g ∈ scan language t)
    (hlt : f.offset < g.offset) : f.signatureEnd ≤ g.offset := by
  have hpair := scan_pairwise language t
  rw [List.pairwise_iff_getElem] at hpair
  obtain ⟨i, hi, rfl⟩ := List.getElem_of_mem hf
  obtain ⟨j, hj, rfl⟩ := List.getElem_of_mem hg
  rcases Nat.lt_trichotomy i j with hij | rfl | hji
  · exact hpair i j hi hj hij
  · omega
  · obtain ⟨m, hm, hmg⟩ := mem_scan hg
    have hplaced := (ofMatch?_wellPlaced hm hmg).offset_lt
    have := hpair j i hj hi hji
    omega

/-- The signature of a function ends with a colon. -/
theorem colon_of_python (hr : r ∈ scan .python t) :
    ∃ i, r.signatureEnd = i + 1 ∧ t[i]? = some ':' := by
  obtain ⟨m, hm, hmr⟩ := List.mem_filterMap.1 hr
  obtain ⟨-, hend, -⟩ := ofMatch?_places hmr
  have hfits := Pattern.findAll_fits hm
  have hfirst := Pattern.first_of_mem_readings _ _ hm
  have hlast : m.stop.lastIs (· == ':') = (':' == ':') :=
    Pattern.lastIs_of_mem_text (x := []) _ (List.mem_of_mem_head? hfirst)
  have hpos : m.first < m.last := by
    have := Language.python.grammar_positive.function
    have := hfits.width_le
    omega
  have hle := hfits.last_le
  obtain ⟨i, hi⟩ : ∃ i, m.last = i + 1 := ⟨m.last - 1, by omega⟩
  refine ⟨i, by rw [hend, hi], ?_⟩
  rw [hfits.stop_eq, hi, Cursor.lastIs_ofPlace _ (by omega), beq_self_eq_true, Option.any_eq_true] at hlast
  obtain ⟨c, hc, hcolon⟩ := hlast
  rw [hc, beq_iff_eq.1 hcolon]

/-- A function that starts behind the signature of another starts on a line further on. -/
theorem lineNumber_lt (hf : f ∈ scan .python t) (hg : g ∈ scan .python t) (hle : f.signatureEnd ≤ g.offset) :
    Text.lineNumber t f.signatureEnd < Text.lineNumber t g.offset := by
  obtain ⟨i, hi, hcolon⟩ := colon_of_python hf
  have hnewline := newline_before hg (by omega)
  have hne : i ≠ g.offset - 1 := by
    intro heq
    rw [← heq, hcolon] at hnewline
    exact absurd hnewline (by decide)
  have hmem : '\n' ∈ Text.slice t f.signatureEnd g.offset :=
    Text.mem_slice_iff.2 ⟨g.offset - 1, by omega, by omega, hnewline⟩
  have := List.count_pos_iff.2 hmem
  rw [Text.lineNumber_add hle]
  omega

/-- The line on which a signature ends is not blank. -/
theorem solidAt_signature (hr : r ∈ scan .python t) :
    Block.SolidAt (Text.lines t) (Text.lineNumber t r.signatureEnd - 1)
      (Text.indentWidth (Text.lineAt t r.signatureEnd)) := by
  obtain ⟨i, hi, hcolon⟩ := colon_of_python hr
  have hline : Text.lineNumber t i = Text.lineNumber t r.signatureEnd := by
    refine Text.lineNumber_eq_of_slice (by omega) fun hmem => ?_
    obtain ⟨k, hk, hk', hget⟩ := Text.mem_slice_iff.1 hmem
    obtain rfl : k = i := by omega
    rw [hcolon] at hget
    exact absurd hget (by decide)
  have hmem : ':' ∈ Text.lineAt t r.signatureEnd := by
    have := Text.mem_lineAt hcolon (by decide)
    rwa [Text.lineAt, hline] at this
  have hpos := Text.lineNumber_pos t r.signatureEnd
  have hle := Text.lineNumber_le_length t r.signatureEnd
  refine ⟨Text.lineAt t r.signatureEnd, ?_, ?_, rfl⟩
  · rw [Text.lineAt, List.getD_eq_getElem?_getD, List.getElem?_eq_getElem (by omega)]
    rfl
  · have htrim := Text.mem_trim_of_mem (by decide) hmem
    rw [Block.isBlankLine, List.isEmpty_eq_false_iff_exists_mem]
    exact ⟨_, htrim⟩

theorem block_of_python (hr : r ∈ scan .python t) :
    r.block = Block.indented t r.offset r.signatureEnd ∧ r.offset ≤ r.signatureEnd ∧
      r.signatureEnd ≤ t.length := by
  obtain ⟨m, hm, hmr⟩ := mem_scan hr
  obtain ⟨hoffset, hend, hblock, -⟩ := ofMatch?_places hmr
  have hplaced := (ofMatch?_wellPlaced hm hmr).offset_lt
  refine ⟨by rw [hblock, hoffset, hend]; rfl, Nat.le_of_lt hplaced, ?_⟩
  rw [hend]
  exact hm.last_le

/-- **Blocks told by indentation form a tree.** For every text and any two of its functions: if the one that
starts second has its signature on one line, it comes behind the end of the first, or it lies in the body of the
first, from its start to its end. -/
theorem indented_tree (hf : f ∈ scan .python t) (hg : g ∈ scan .python t) (hlt : f.offset < g.offset)
    (hone : '\n' ∉ Text.slice t g.offset g.signatureEnd) :
    f.block.stop < g.offset ∨ f.block.bodyStart ≤ g.offset ∧ g.block.stop ≤ f.block.stop := by
  obtain ⟨hfblock, hfspan, hflen⟩ := block_of_python hf
  obtain ⟨hgblock, hgspan, hglen⟩ := block_of_python hg
  have hflen' : f.offset ≤ t.length := by omega
  have hglen' : g.offset ≤ t.length := by omega
  have hpos := Text.lineNumber_pos t f.signatureEnd
  have hlines := lineNumber_lt hf hg (signatureEnd_le_of_lt hf hg hlt)
  have hsame := Text.lineNumber_eq_of_slice hgspan hone
  rw [hfblock, hgblock]
  rcases Block.indented_stop hflen' hflen with hstop | ⟨width, k, m, j, hbody, hstart, hstop⟩
  · rw [hstop]
    exact Or.inl (Text.lineStop_lt hglen' hpos hlines)
  · rw [hstart, hstop]
    by_cases hbehind : Text.lineNumber t f.signatureEnd + (j + 1) < Text.lineNumber t g.offset
    · exact Or.inl (Text.lineStop_lt hglen' (by omega) hbehind)
    · -- the line of the inner signature is a line of the outer body
      refine Or.inr ⟨Text.lineStop_lt hglen' hpos hlines, ?_⟩
      obtain ⟨i, hi⟩ : ∃ i, Text.lineNumber t g.offset = Text.lineNumber t f.signatureEnd + (i + 1) :=
        ⟨Text.lineNumber t g.offset - Text.lineNumber t f.signatureEnd - 1, by omega⟩
      have hsolid : Block.SolidAt (Text.linesBehind t f.signatureEnd) i
          (Text.indentWidth (Text.lineAt t g.offset)) := by
        have hline := solidAt_signature hg
        rw [Text.lineAt, ← hsame, ← Text.lineAt, hi] at hline
        exact (Block.solidAt_drop _).2 hline
      rcases Block.indented_stop hglen' hglen with hstop' | ⟨width', k', m', j', hbody', -, hstop'⟩
      · rw [hstop', ← hsame]
        exact Text.lineStop_mono t (by omega)
      · have hinner : Text.linesBehind t g.signatureEnd
            = (Text.linesBehind t f.signatureEnd).drop (i + 1) := by
          rw [Text.linesBehind, Text.linesBehind, List.drop_drop, ← hsame, hi]
        rw [hinner] at hbody'
        have hle := hbody.last_le hsolid (by omega) hbody'
        rw [hstop', ← hsame]
        exact Text.lineStop_mono t (by omega)

/-- A function with a signature of two lines, and one in its body, with a comment at an odd indentation behind. -/
theorem indented_tree_odd_comment :
    let t := "def f(\n  a):\n  def g(): # g\n\n    x\n # odd\ny".toList
    let f : Routine := ⟨['f'], [⟨['a'], none, none⟩], 0, 12, ⟨13, 34, 34⟩, 1, 5⟩
    let g : Routine := ⟨['g'], [], 13, 23, ⟨28, 34, 34⟩, 3, 5⟩
    f ∈ scan .python t ∧ g ∈ scan .python t ∧ f.offset < g.offset ∧
      '\n' ∉ Text.slice t g.offset g.signatureEnd ∧
      f.block.bodyStart ≤ g.offset ∧ g.block.stop ≤ f.block.stop := by
  intro t f g
  have hf : f ∈ scan .python t := by decide +kernel
  have hg : g ∈ scan .python t := by decide +kernel
  have hlt : f.offset < g.offset := by decide
  have hone : '\n' ∉ Text.slice t g.offset g.signatureEnd := by decide
  refine ⟨hf, hg, hlt, hone, ?_⟩
  rcases indented_tree hf hg hlt hone with hbehind | hinside
  · exact absurd hbehind (by decide)
  · exact hinside

end Routine

end CodeSurvey
