import CodeSurvey.Proofs.Pattern.Line
import CodeSurvey.Proofs.Pattern.Recall
import CodeSurvey.Proofs.Performance.PartTime

/-!
# Loops in loops, line by line

Where indentation tells blocks, the estimate of time looks for a header, for lines of its body, and for another
loop in the body, with patterns that run over several lines and ask for the indentation of the header once more.
What these ask can be told line by line.

* `startsLoop`, `endsInColon`, `staysIn`: what the estimate asks of one line.
* `HeaderAt`, `LoopAt`, `Encloses`: headers, loops, and the lines that a header encloses, by their numbers.
* `mem_stops_head`, `mem_stops_bodyLine`, `mem_stops_intoBody`: the patterns lead from line to line.
-/

namespace CodeSurvey

open Pattern Cursor
open Text (indent dropIndent indent_append_dropIndent isGap_of_mem_indent indent_append dropIndent_append)

namespace IndentedLoop

variable {t a g l x y z : Text} {i j k limit : Nat} {c d : Cursor}

/-! ## One line -/

/-- Whether a loop word stands in front, and does not go on. -/
def startsLoop (x : Text) : Bool :=
  ["for", "while"].any fun w =>
    w.toList.isPrefixOf x && !(x.drop w.toList.length).head?.any Text.isWord

/-- Whether a line ends in a colon, spaces and tabs behind it left out. -/
def endsInColon (l : Text) : Bool :=
  (l.reverse.dropWhile isGap).head? == some ':'

/-- Whether a line is indented by more than `a`: its own indentation goes on behind it. -/
def isDeeper (a l : Text) : Bool :=
  a.isPrefixOf (indent l) && indent l != a

/-- Whether a body that is indented by more than `a` goes on with a line: there is nothing on it, or it is
indented so, with a character behind that is no blank. -/
def staysIn (a l : Text) : Bool :=
  l.all isGap || isDeeper a l && (dropIndent l).head?.any (!Text.isBlank ·)

/-- What is left of a line behind the word that makes a loop wait, if it starts with that word. -/
def behindAsync (x : Text) : Text :=
  if "async".toList.isPrefixOf x && (x.drop 5).head?.any isGap then dropIndent (x.drop 5) else x

/-- Whether a line counts as a loop of its own: a loop word, and a colon somewhere behind it. -/
def countsAsLoop (l : Text) : Bool :=
  startsLoop (behindAsync (dropIndent l)) && (behindAsync (dropIndent l)).contains ':'

/-! ## Lines of a text -/

/-- Line `i` starts a loop. -/
def LoopAt (ls : List Text) (i : Nat) : Prop :=
  startsLoop (dropIndent (ls.getD i [])) = true

/-- **Line `i` is the header of a loop**: it starts a loop, it ends in a colon, and another line follows. -/
def HeaderAt (ls : List Text) (i : Nat) : Prop :=
  LoopAt ls i ∧ endsInColon (ls.getD i []) = true ∧ i + 1 < ls.length

/-- **Line `i` encloses line `j`** further down: line `j` is indented by more, and the body goes on with every
line between them. -/
def Encloses (ls : List Text) (i j : Nat) : Prop :=
  i < j ∧ isDeeper (indent (ls.getD i [])) (ls.getD j []) = true ∧
    ∀ k < j, i < k → staysIn (indent (ls.getD i [])) (ls.getD k []) = true

instance (ls : List Text) (i : Nat) : Decidable (LoopAt ls i) :=
  inferInstanceAs (Decidable (_ = _))

instance (ls : List Text) (i : Nat) : Decidable (HeaderAt ls i) :=
  inferInstanceAs (Decidable (_ ∧ _))

instance (ls : List Text) (i j : Nat) : Decidable (Encloses ls i j) :=
  inferInstanceAs (Decidable (_ ∧ _))

/-! ## What a line is made of -/

theorem notMem_of_gaps {ch : Char} (ha : ∀ ch ∈ a, isGap ch = true) (hch : isGap ch = false) : ch ∉ a := by
  intro hmem
  rw [ha ch hmem] at hch
  cases hch

theorem startsLoop_iff : startsLoop x = true ↔
    ∃ w ∈ ["for", "while"], ∃ z, x = w.toList ++ z ∧ ∀ ch ∈ z.head?, Text.isWord ch = false := by
  unfold startsLoop
  simp only [List.any_eq_true, Bool.and_eq_true, Bool.not_eq_true', List.isPrefixOf_iff_prefix]
  constructor
  · rintro ⟨w, hw, ⟨z, rfl⟩, hz⟩
    rw [List.drop_left] at hz
    refine ⟨w, hw, z, rfl, fun ch hch => ?_⟩
    rw [Option.mem_def.1 hch] at hz
    exact hz
  · rintro ⟨w, hw, z, rfl, hz⟩
    refine ⟨w, hw, List.prefix_append _ _, ?_⟩
    rw [List.drop_left]
    cases hhead : z.head? with
    | none => rfl
    | some ch => exact hz ch hhead

theorem endsInColon_iff : endsInColon l = true ↔ ∃ u g, l = u ++ ':' :: g ∧ ∀ ch ∈ g, isGap ch = true := by
  unfold endsInColon
  rw [beq_iff_eq]
  constructor
  · intro h
    obtain ⟨u, hu⟩ := List.head?_eq_some_iff.1 h
    refine ⟨u.reverse, (l.reverse.takeWhile isGap).reverse, ?_, fun ch hch => ?_⟩
    · rw [← List.reverse_inj]
      simp only [List.reverse_append, List.reverse_cons, List.reverse_reverse, List.append_assoc,
        List.singleton_append]
      rw [← hu, List.takeWhile_append_dropWhile]
    · exact List.mem_takeWhile_imp (List.mem_reverse.1 hch)
  · rintro ⟨u, g, rfl, hg⟩
    rw [List.reverse_append, List.reverse_cons, List.append_assoc,
      List.dropWhile_append_of_pos fun ch hch => hg ch (List.mem_reverse.1 hch)]
    rfl

/-- What a line ends in does not depend on what stands in front, as long as that holds no colon. -/
theorem endsInColon_append (hx : ':' ∉ x) : endsInColon (x ++ y) = endsInColon y := by
  rw [Bool.eq_iff_iff, endsInColon_iff, endsInColon_iff]
  constructor
  · rintro ⟨u, g, heq, hg⟩
    obtain ⟨w, -, rfl⟩ := Text.exists_eq_append heq.symm hx
    exact ⟨w, g, rfl, hg⟩
  · rintro ⟨u, g, rfl, hg⟩
    exact ⟨x ++ u, g, by rw [List.append_assoc], hg⟩

theorem isDeeper_iff : isDeeper a l = true ↔ ∃ g, g ≠ [] ∧ indent l = a ++ g := by
  unfold isDeeper
  rw [Bool.and_eq_true, List.isPrefixOf_iff_prefix, bne_iff_ne]
  constructor
  · rintro ⟨⟨g, hg⟩, hne⟩
    refine ⟨g, ?_, hg.symm⟩
    rintro rfl
    exact hne (by rw [← hg, List.append_nil])
  · rintro ⟨g, hne, hg⟩
    refine ⟨⟨g, hg.symm⟩, fun heq => hne ?_⟩
    simpa [hg] using heq

/-- A loop word is no space and no tab, and it holds no colon. -/
theorem head_of_startsLoop (h : startsLoop x = true) : ∀ ch ∈ x.head?, isGap ch = false := by
  obtain ⟨w, hw, z, rfl, -⟩ := startsLoop_iff.1 h
  simp only [List.mem_cons, List.not_mem_nil, or_false] at hw
  rcases hw with rfl | rfl <;> simp [isGap]

/-! ## The patterns on one line -/

theorem mem_stops_loopWord_line (h : OnLine t i y c) : d ∈ loopWord.stops limit c ↔
    ∃ w ∈ ["for", "while"], ∃ z, y = w.toList ++ z ∧ (∀ ch ∈ z.head?, Text.isWord ch = false) ∧
      d = c.advance w.toList.length := by
  have hwords : ∀ w ∈ ["for", "while"], '\n' ∉ w.toList ∧
      ∃ ch, w.toList.getLast? = some ch ∧ Text.isWord ch = true := by
    intro w hw
    simp only [List.mem_cons, List.not_mem_nil, or_false] at hw
    rcases hw with rfl | rfl
    · exact ⟨by decide, 'r', rfl, by decide⟩
    · exact ⟨by decide, 'e', rfl, by decide⟩
  rw [loopWord, mem_stops_seq rfl]
  simp only [mem_stops_words (List.cons_ne_nil _ _)]
  constructor
  · rintro ⟨e, ⟨w, hw, hpre, rfl⟩, hd⟩
    obtain ⟨hend, ch, hlast, hch⟩ := hwords w hw
    obtain ⟨z, rfl⟩ := (h.prefix_iff hend).1 hpre
    obtain ⟨hz, rfl⟩ := (mem_stops_edge_line h hlast hch).1 hd
    exact ⟨w, hw, z, rfl, hz, rfl⟩
  · rintro ⟨w, hw, z, rfl, hz, rfl⟩
    obtain ⟨hend, ch, hlast, hch⟩ := hwords w hw
    exact ⟨_, ⟨w, hw, (h.prefix_iff hend).2 (List.prefix_append _ _), rfl⟩,
      (mem_stops_edge_line h hlast hch).2 ⟨hz, rfl⟩⟩

theorem exists_stop_loopWord (h : OnLine t i y c) :
    (∃ d, d ∈ loopWord.stops limit c) ↔ startsLoop y = true := by
  simp only [mem_stops_loopWord_line h, startsLoop_iff]
  constructor
  · rintro ⟨d, w, hw, z, hy, hz, -⟩
    exact ⟨w, hw, z, hy, hz⟩
  · rintro ⟨w, hw, z, hy, hz⟩
    exact ⟨_, w, hw, z, hy, hz, rfl⟩

/-- **The pattern of a header leads to the next line**, behind a loop word and a colon that ends the line. -/
theorem mem_stops_head (h : OnLine t i y c) : d ∈ head.stops limit c ↔
    startsLoop y = true ∧ endsInColon y = true ∧ i + 1 < (Text.lines t).length ∧ d = row t (i + 1) := by
  have hcolon : ∀ w ∈ ["for", "while"], ':' ∉ w.toList := by decide
  rw [head, mem_stops_seq rfl]
  constructor
  · rintro ⟨e, he, hd⟩
    obtain ⟨e, he, hgap⟩ := (mem_stops_seq rfl).1 he
    obtain ⟨e, he, hmark⟩ := (mem_stops_seq rfl).1 he
    obtain ⟨e, he, hrest⟩ := (mem_stops_seq rfl).1 he
    obtain ⟨w, hw, y, rfl, hy, rfl⟩ := (mem_stops_loopWord_line h).1 he
    have h₁ := h.advance
    obtain ⟨u, y, rfl, rfl⟩ := (mem_stops_lineRest_line h₁).1 hrest
    have h₂ := h₁.advance
    obtain ⟨y, rfl, rfl⟩ := (mem_stops_text_line h₂ (by decide)).1 hmark
    have h₃ := h₂.advance
    obtain ⟨g, y, rfl, hg, rfl⟩ := (mem_stops_span_line h₃ rfl).1 hgap
    obtain ⟨rfl, hlt, rfl⟩ := (mem_stops_end_line h₃.advance).1 hd
    refine ⟨startsLoop_iff.2 ⟨w, hw, _, rfl, hy⟩, endsInColon_iff.2 ⟨w.toList ++ u, g, ?_, hg⟩, hlt, rfl⟩
    simp
  · rintro ⟨hstarts, hends, hlt, rfl⟩
    obtain ⟨w, hw, z, rfl, hz⟩ := startsLoop_iff.1 hstarts
    rw [endsInColon_append (hcolon w hw)] at hends
    obtain ⟨u, g, rfl, hg⟩ := endsInColon_iff.1 hends
    have h₁ := h.advance
    have h₂ := h₁.advance
    have h₃ : OnLine t i g _ := OnLine.advance (x := [':']) h₂
    have h₄ : OnLine t i [] _ := OnLine.advance (x := g) (by rwa [List.append_nil])
    have hword : _ ∈ loopWord.stops limit c := (mem_stops_loopWord_line h).2 ⟨w, hw, _, rfl, hz, rfl⟩
    have hrest : _ ∈ lineRest.stops limit _ := (mem_stops_lineRest_line h₁).2 ⟨u, _, rfl, rfl⟩
    have hmark : _ ∈ (lit ":").stops limit _ := (mem_stops_text_line h₂ (by decide)).2 ⟨g, rfl, rfl⟩
    have hgap : _ ∈ gap.stops limit _ :=
      (mem_stops_span_line h₃ rfl).2 ⟨g, [], (List.append_nil g).symm, hg, rfl⟩
    have htoColon := (mem_stops_seq rfl).2 ⟨_, (mem_stops_seq rfl).2 ⟨_, hword, hrest⟩, hmark⟩
    exact ⟨_, (mem_stops_seq rfl).2 ⟨_, htoColon, hgap⟩, (mem_stops_end_line h₄).2 ⟨rfl, hlt, rfl⟩⟩

/-- The pattern of one line of a body. -/
def bodyLine (indent : Pattern) : Pattern :=
  (indent ++ someGap ++ one (!Text.isBlank ·) ++ lineRest ++ lit "\n") <|> (gap ++ lit "\n")

theorem recalls_bodyLine {p : Pattern} (h : p.recalls = false) : (bodyLine p).recalls = false := by
  show (p.recalls || false || false || false || false || (false || false)) = false
  rw [h]
  rfl

theorem deeperLines_eq (p : Pattern) : deeperLines p = many .shortest (bodyLine p) := rfl

/-- A body goes on with a line. -/
theorem staysIn_iff (ha : ∀ ch ∈ a, isGap ch = true) : staysIn a l = true ↔
    (∃ g ch z, l = a ++ (g ++ ch :: z) ∧ g ≠ [] ∧ (∀ ch ∈ g, isGap ch = true) ∧ Text.isBlank ch = false) ∨
      ∀ ch ∈ l, isGap ch = true := by
  have hblank : ∀ {ch : Char}, Text.isBlank ch = false → isGap ch = false := by
    intro ch hch
    by_contra hgap
    simp only [isGap, Bool.not_eq_false, Bool.or_eq_true, beq_iff_eq] at hgap
    rcases hgap with rfl | rfl <;> exact absurd hch (by decide)
  unfold staysIn
  rw [Bool.or_eq_true, List.all_eq_true, Bool.and_eq_true, isDeeper_iff, or_comm]
  refine or_congr_left ⟨?_, ?_⟩
  · rintro ⟨⟨g, hne, hg⟩, hhead⟩
    obtain ⟨ch, hch, hsolid⟩ := (Option.any_eq_true _ _).1 hhead
    obtain ⟨z, hz⟩ := List.head?_eq_some_iff.1 hch
    refine ⟨g, ch, z, ?_, hne, fun ch hch => ?_, by simpa using hsolid⟩
    · rw [← indent_append_dropIndent l, hg, hz, List.append_assoc]
    · exact isGap_of_mem_indent ch (hg ▸ List.mem_append_right a hch)
  · rintro ⟨g, ch, z, rfl, hne, hg, hch⟩
    have hgaps : ∀ ch ∈ a ++ g, isGap ch = true := List.forall_mem_append.2 ⟨ha, hg⟩
    have hhead : ∀ c ∈ (ch :: z).head?, isGap c = false := by
      rintro c ⟨⟩
      exact hblank hch
    rw [← List.append_assoc]
    refine ⟨⟨g, hne, indent_append hgaps hhead⟩, ?_⟩
    rw [dropIndent_append hgaps hhead]
    simp [hch]

/-- **The pattern of a line of a body leads to the next line**, if the body goes on with it. -/
theorem mem_stops_bodyLine {p : Pattern} (h : OnLine t i l c) (ha : ∀ ch ∈ a, isGap ch = true)
    (hp : ∀ d, d ∈ p.stops limit c ↔ d ∈ (text a).stops limit c) : d ∈ (bodyLine p).stops limit c ↔
      i + 1 < (Text.lines t).length ∧ staysIn a l = true ∧ d = row t (i + 1) := by
  have hend : '\n' ∉ a := notMem_of_gaps ha rfl
  rw [bodyLine, mem_stops_alt, staysIn_iff ha]
  constructor
  · rintro (hd | hd)
    · obtain ⟨e, he, hd⟩ := (mem_stops_seq rfl).1 hd
      obtain ⟨e, he, hrest⟩ := (mem_stops_seq rfl).1 he
      obtain ⟨e, he, hone⟩ := (mem_stops_seq rfl).1 he
      obtain ⟨e, he, hgap⟩ := (mem_stops_seq rfl).1 he
      obtain ⟨y, rfl, rfl⟩ := (mem_stops_text_line h hend).1 ((hp e).1 he)
      have h₁ := h.advance
      obtain ⟨g, y, rfl, hne, hg, rfl⟩ := (mem_stops_someGap_line h₁).1 hgap
      have h₂ := h₁.advance
      obtain ⟨ch, z, rfl, hch, rfl⟩ := (mem_stops_one_line h₂ (by decide)).1 hone
      have h₃ : OnLine t i z _ := OnLine.advance (x := [ch]) h₂
      obtain ⟨u, y, rfl, rfl⟩ := (mem_stops_lineRest_line h₃).1 hrest
      obtain ⟨-, hlt, rfl⟩ := (mem_stops_end_line h₃.advance).1 hd
      exact ⟨hlt, Or.inl ⟨g, ch, _, rfl, hne, hg, by simpa using hch⟩, rfl⟩
    · obtain ⟨e, he, hd⟩ := (mem_stops_seq rfl).1 hd
      obtain ⟨g, y, rfl, hg, rfl⟩ := (mem_stops_span_line h rfl).1 he
      obtain ⟨rfl, hlt, rfl⟩ := (mem_stops_end_line h.advance).1 hd
      exact ⟨hlt, Or.inr (by rwa [List.append_nil]), rfl⟩
  · rintro ⟨hlt, ⟨g, ch, z, rfl, hne, hg, hch⟩ | hall, rfl⟩
    · left
      have h₁ := h.advance
      have h₂ := h₁.advance
      have h₃ : OnLine t i z _ := OnLine.advance (x := [ch]) h₂
      have h₄ : OnLine t i [] _ := OnLine.advance (x := z) (by rwa [List.append_nil])
      have htext := (hp _).2 ((mem_stops_text_line h hend).2 ⟨_, rfl, rfl⟩)
      have hgap : _ ∈ someGap.stops limit _ := (mem_stops_someGap_line h₁).2 ⟨g, _, rfl, hne, hg, rfl⟩
      have hone : _ ∈ (one (!Text.isBlank ·)).stops limit _ :=
        (mem_stops_one_line h₂ (by decide)).2 ⟨ch, z, rfl, by simpa using hch, rfl⟩
      have hrest : _ ∈ lineRest.stops limit _ :=
        (mem_stops_lineRest_line h₃).2 ⟨z, [], (List.append_nil z).symm, rfl⟩
      have htoSolid := (mem_stops_seq rfl).2 ⟨_, (mem_stops_seq rfl).2 ⟨_, htext, hgap⟩, hone⟩
      exact (mem_stops_seq rfl).2
        ⟨_, (mem_stops_seq rfl).2 ⟨_, htoSolid, hrest⟩, (mem_stops_end_line h₄).2 ⟨rfl, hlt, rfl⟩⟩
    · right
      have h₁ : OnLine t i [] _ := OnLine.advance (x := l) (by rwa [List.append_nil])
      refine (mem_stops_seq rfl).2 ⟨_, ?_, (mem_stops_end_line h₁).2 ⟨rfl, hlt, rfl⟩⟩
      exact (mem_stops_span_line h rfl).2 ⟨l, [], (List.append_nil l).symm, hall, rfl⟩

/-! ## From line to line -/

theorem getElem?_line {ls : List Text} (hi : i < ls.length) : ls[i]? = some (ls.getD i []) := by
  rw [List.getD_eq_getElem?_getD, List.getElem?_eq_getElem hi, Option.getD_some]

/-- **The pattern of a body stops at lines of the body**: the body goes on with every line in front of them. -/
theorem mem_stops_deeperLines {p : Pattern} (hgroups : p.groups = []) (hrecalls : p.recalls = false)
    (ha : ∀ ch ∈ a, isGap ch = true) (hp : ∀ c d, d ∈ p.stops limit c ↔ d ∈ (text a).stops limit c)
    (hlimit : (Text.lines t).length ≤ limit + 1) (hi : i < (Text.lines t).length) :
    d ∈ (deeperLines p).stops limit (row t i) ↔ ∃ j, i ≤ j ∧ j < (Text.lines t).length ∧
      (∀ k, i ≤ k → k < j → staysIn a ((Text.lines t).getD k []) = true) ∧ d = row t j := by
  have hgroups' : (bodyLine p).groups = [] := by
    show p.groups ++ [] ++ [] ++ [] ++ [] ++ ([] ++ []) = []
    rw [hgroups]
    rfl
  rw [deeperLines_eq, mem_stops_many hgroups' (recalls_bodyLine hrecalls)
    (fun k hk d => mem_stops_bodyLine (onLine_row (getElem?_line hk)) ha (hp _)) hi]
  constructor
  · rintro ⟨j, hij, hj, -, hall, rfl⟩
    exact ⟨j, hij, hj, hall, rfl⟩
  · rintro ⟨j, hij, hj, hall, rfl⟩
    exact ⟨j, hij, hj, by omega, hall, rfl⟩

/-- The pattern of the rest of a header, of lines of its body, and of the indentation of one more line. -/
def intoBody (p : Pattern) : Pattern :=
  head ++ deeperLines p ++ p

/-- **From a header into its body.** -/
theorem mem_stops_intoBody {p : Pattern} (hgroups : p.groups = []) (hrecalls : p.recalls = false)
    (ha : ∀ ch ∈ a, isGap ch = true) (hp : ∀ c d, d ∈ p.stops limit c ↔ d ∈ (text a).stops limit c)
    (hlimit : (Text.lines t).length ≤ limit + 1) (h : OnLine t i y c) :
    d ∈ (intoBody p).stops limit c ↔ startsLoop y = true ∧ endsInColon y = true ∧
      ∃ j z, i < j ∧ j < (Text.lines t).length ∧
        (∀ k < j, i < k → staysIn a ((Text.lines t).getD k []) = true) ∧
        (Text.lines t).getD j [] = a ++ z ∧ d = (row t j).advance a.length := by
  have hend : '\n' ∉ a := notMem_of_gaps ha rfl
  have hdeeper : (deeperLines p).recalls = false := recalls_bodyLine hrecalls
  rw [intoBody, mem_stops_seq hrecalls]
  constructor
  · rintro ⟨e, he, hd⟩
    obtain ⟨e, he, hlines⟩ := (mem_stops_seq hdeeper).1 he
    obtain ⟨hstarts, hends, hlt, rfl⟩ := (mem_stops_head h).1 he
    obtain ⟨j, hij, hj, hall, rfl⟩ := (mem_stops_deeperLines hgroups hrecalls ha hp hlimit hlt).1 hlines
    obtain ⟨z, hz, rfl⟩ := (mem_stops_text_line (onLine_row (getElem?_line hj)) hend).1 ((hp _ _).1 hd)
    exact ⟨hstarts, hends, j, z, hij, hj, fun k hkj hik => hall k hik hkj, hz, rfl⟩
  · rintro ⟨hstarts, hends, j, z, hij, hj, hall, hz, rfl⟩
    have hlt : i + 1 < (Text.lines t).length := by omega
    have hhead : _ ∈ head.stops limit c := (mem_stops_head h).2 ⟨hstarts, hends, hlt, rfl⟩
    have hlines : _ ∈ (deeperLines p).stops limit (row t (i + 1)) :=
      (mem_stops_deeperLines hgroups hrecalls ha hp hlimit hlt).2
        ⟨j, hij, hj, fun k hik hkj => hall k hkj hik, rfl⟩
    have htext : _ ∈ (text a).stops limit (row t j) :=
      (mem_stops_text_line (onLine_row (getElem?_line hj)) hend).2 ⟨z, hz, rfl⟩
    exact ⟨_, (mem_stops_seq hdeeper).2 ⟨_, hhead, hlines⟩, (hp _ _).2 htext⟩

/-- A loop that is indented further. -/
theorem exists_stop_innerWord (h : OnLine t i y c) : (∃ d, d ∈ (someGap ++ loopWord).stops limit c) ↔
    ∃ g z, y = g ++ z ∧ g ≠ [] ∧ (∀ ch ∈ g, isGap ch = true) ∧ startsLoop z = true := by
  constructor
  · rintro ⟨d, hd⟩
    obtain ⟨e, he, hd⟩ := (mem_stops_seq rfl).1 hd
    obtain ⟨g, z, rfl, hne, hg, rfl⟩ := (mem_stops_someGap_line h).1 he
    exact ⟨g, z, rfl, hne, hg, (exists_stop_loopWord h.advance).1 ⟨d, hd⟩⟩
  · rintro ⟨g, z, rfl, hne, hg, hstarts⟩
    obtain ⟨d, hd⟩ := (exists_stop_loopWord h.advance).2 hstarts
    exact ⟨d, (mem_stops_seq rfl).2 ⟨_, (mem_stops_someGap_line h).2 ⟨g, z, rfl, hne, hg, rfl⟩, hd⟩⟩

/-! ## Headers and what they enclose -/

/-- In front of a loop word, spaces and tabs are the indentation of the line. -/
theorem parts_of_startsLoop (hl : l = a ++ y) (ha : ∀ ch ∈ a, isGap ch = true) (hy : startsLoop y = true) :
    indent l = a ∧ dropIndent l = y := by
  have hhead := head_of_startsLoop hy
  rw [hl]
  exact ⟨indent_append ha hhead, dropIndent_append ha hhead⟩

theorem endsInColon_of_append (ha : ∀ ch ∈ a, isGap ch = true) : endsInColon (a ++ y) = endsInColon y :=
  endsInColon_append (notMem_of_gaps ha rfl)

theorem LoopAt.lt {ls : List Text} (h : LoopAt ls i) : i < ls.length := by
  by_contra hge
  rw [LoopAt, List.getD_eq_getElem?_getD, List.getElem?_eq_none (by omega)] at h
  exact absurd h (by decide)

/-- A header whose indentation is known. -/
theorem headerAt_iff_of_startsLoop {P : Nat → Prop} {ls : List Text} (hP : ∀ j, P j → j < ls.length)
    (hl : ls.getD i [] = a ++ y) (ha : ∀ ch ∈ a, isGap ch = true) (hstarts : startsLoop y = true) :
    HeaderAt ls i ∧ (∃ j, Encloses ls i j ∧ P j) ↔ endsInColon y = true ∧
      ∃ j, i < j ∧ (∀ k < j, i < k → staysIn a (ls.getD k []) = true) ∧
        isDeeper a (ls.getD j []) = true ∧ P j := by
  obtain ⟨hindent, hrest⟩ := parts_of_startsLoop hl ha hstarts
  have hends : endsInColon (ls.getD i []) = endsInColon y := by
    rw [hl, endsInColon_of_append ha]
  unfold HeaderAt Encloses LoopAt
  rw [hindent, hrest, hends]
  constructor
  · rintro ⟨⟨-, hends, -⟩, j, ⟨hij, hdeeper, hall⟩, hj⟩
    exact ⟨hends, j, hij, hall, hdeeper, hj⟩
  · rintro ⟨hends, j, hij, hall, hdeeper, hj⟩
    have hlt := hP j hj
    exact ⟨⟨hstarts, hends, by omega⟩, j, ⟨hij, hdeeper, hall⟩, hj⟩

/-- A header, taken apart: its indentation, and behind it a loop word and a colon. -/
theorem exists_header_iff {P : Nat → Prop} {ls : List Text} (hP : ∀ j, P j → j < ls.length) :
    (∃ a y, ls.getD i [] = a ++ y ∧ (∀ ch ∈ a, isGap ch = true) ∧ startsLoop y = true ∧
      endsInColon y = true ∧ ∃ j, i < j ∧ (∀ k < j, i < k → staysIn a (ls.getD k []) = true) ∧
        isDeeper a (ls.getD j []) = true ∧ P j) ↔
      HeaderAt ls i ∧ ∃ j, Encloses ls i j ∧ P j := by
  constructor
  · rintro ⟨a, y, hl, ha, hstarts, hrest⟩
    exact (headerAt_iff_of_startsLoop hP hl ha hstarts).2 hrest
  · intro h
    have hl := (indent_append_dropIndent (ls.getD i [])).symm
    have hstarts := h.1.1
    exact ⟨_, _, hl, isGap_of_mem_indent, hstarts,
      (headerAt_iff_of_startsLoop hP hl isGap_of_mem_indent hstarts).1 h⟩

/-- A loop that is indented by more than `a`. -/
theorem isDeeper_loopAt_iff {ls : List Text} (ha : ∀ ch ∈ a, isGap ch = true) :
    isDeeper a (ls.getD j []) = true ∧ LoopAt ls j ↔
      ∃ g z, ls.getD j [] = a ++ (g ++ z) ∧ g ≠ [] ∧ (∀ ch ∈ g, isGap ch = true) ∧
        startsLoop z = true := by
  constructor
  · rintro ⟨hdeeper, hloop⟩
    obtain ⟨g, hne, hg⟩ := isDeeper_iff.1 hdeeper
    refine ⟨g, dropIndent (ls.getD j []), ?_, hne, fun ch hch => ?_, hloop⟩
    · rw [← List.append_assoc, ← hg, indent_append_dropIndent]
    · exact isGap_of_mem_indent ch (hg ▸ List.mem_append_right a hch)
  · rintro ⟨g, z, hl, hne, hg, hstarts⟩
    rw [← List.append_assoc] at hl
    have hgaps : ∀ ch ∈ a ++ g, isGap ch = true := List.forall_mem_append.2 ⟨ha, hg⟩
    obtain ⟨hindent, hrest⟩ := parts_of_startsLoop hl hgaps hstarts
    refine ⟨isDeeper_iff.2 ⟨g, hne, hindent⟩, ?_⟩
    rw [LoopAt, hrest]
    exact hstarts

end IndentedLoop

end CodeSurvey
