import Mathlib.Data.List.Basic
import CodeSurvey.Proofs.Performance.LoopSearch

/-!
# Comments behind loop headers

Where indentation tells blocks, a loop is the header of a block only if its line ends in a colon. A comment behind
the colon hides it: the loop still counts as a loop, it still is enclosed by others and still stays in their
bodies, but it encloses nothing any more.

* `NestedLines`: loops in one another, by the numbers of their lines.
* `le_rank_indentedTime_iff`: from two loops on, the growth of time is how deep they are nested.
* `withComment`: a text with a comment behind one of its lines.
* `nestedLines_withComment_iff`: the comment takes away exactly the nestings that go through its line.
* `Estimate.ofTime_withComment_iff`: when the estimate stays as it is.
-/

namespace CodeSurvey

open Pattern
open Text (indent dropIndent indent_append_dropIndent isGap_of_mem_indent indent_append dropIndent_append)

namespace IndentedLoop

variable {t a l w x y : Text} {ls : List Text} {i j n : Nat}

/-! ## Loops in one another -/

/-- **Loops in one another, line by line**: the last line starts a loop, and each line before is a header that
encloses the next one. -/
def NestedLines (ls : List Text) : List Nat → Prop
  | [] => True
  | [j] => LoopAt ls j
  | i :: j :: l => HeaderAt ls i ∧ Encloses ls i j ∧ NestedLines ls (j :: l)

instance decidableNestedLines (ls : List Text) : ∀ l, Decidable (NestedLines ls l)
  | [] => inferInstanceAs (Decidable True)
  | [j] => inferInstanceAs (Decidable (LoopAt ls j))
  | _ :: j :: l =>
    have := decidableNestedLines ls (j :: l)
    inferInstanceAs (Decidable (_ ∧ _ ∧ _))

theorem exists_nestedLines_two : (∃ l, l.length = 2 ∧ NestedLines ls l) ↔
    ∃ i j, HeaderAt ls i ∧ Encloses ls i j ∧ LoopAt ls j := by
  constructor
  · rintro ⟨l, hl, h⟩
    obtain ⟨i, j, rfl⟩ := List.length_eq_two.1 hl
    exact ⟨i, j, h⟩
  · rintro ⟨i, j, h⟩
    exact ⟨[i, j], rfl, h⟩

theorem exists_nestedLines_three : (∃ l, l.length = 3 ∧ NestedLines ls l) ↔
    ∃ i j k, HeaderAt ls i ∧ HeaderAt ls j ∧ Encloses ls i j ∧ Encloses ls j k ∧ LoopAt ls k := by
  constructor
  · rintro ⟨l, hl, h⟩
    obtain ⟨i, j, k, rfl⟩ := List.length_eq_three.1 hl
    obtain ⟨hi, hij, hj, hjk, hk⟩ := h
    exact ⟨i, j, k, hi, hj, hij, hjk, hk⟩
  · rintro ⟨i, j, k, hi, hj, hij, hjk, hk⟩
    exact ⟨[i, j, k], rfl, hi, hij, hj, hjk, hk⟩

/-- **From two loops on, the growth of time is how deep they are nested**, up to three. -/
theorem le_rank_indentedTime_iff (hn : 2 ≤ n) (hle : n ≤ 3) :
    n ≤ (Estimate.ofTime .python t).growth.rank ↔ ∃ l, l.length = n ∧ NestedLines (Text.lines t) l := by
  have hgrowth : (Estimate.ofTime .python t).growth = _ := Estimate.growth_ofTime_indented rfl t
  rw [hgrowth]
  obtain rfl | rfl : n = 2 ∨ n = 3 := by omega
  · show Growth.quadratic ≤ _ ↔ _
    rw [Growth.quadratic_le_ofNesting_iff, foundIn_double_iff, foundIn_triple_iff, exists_nestedLines_two]
    constructor
    · rintro (⟨i, j, k, -, hj, -, hjk, hk⟩ | h)
      · exact ⟨j, k, hj, hjk, hk⟩
      · exact h
    · exact Or.inr
  · show Growth.cubic ≤ _ ↔ _
    rw [Growth.cubic_le_iff, Growth.ofNesting_eq_cubic_iff, foundIn_triple_iff, exists_nestedLines_three]

/-- A loop with a colon somewhere behind its word counts as one. -/
theorem linear_le_of_loopAt (hloop : LoopAt (Text.lines t) i) (hcolon : ':' ∈ dropIndent ((Text.lines t).getD i [])) :
    .linear ≤ (Estimate.ofTime .python t).growth := by
  have hgrowth : (Estimate.ofTime .python t).growth = _ := Estimate.growth_ofTime_indented rfl t
  have hcounts : countsAsLoop ((Text.lines t).getD i []) = true := by
    rw [countsAsLoop_iff, behindAsync_of_startsLoop hloop]
    exact ⟨hloop, hcolon⟩
  rw [hgrowth, Growth.linear_le_ofNesting_iff, foundIn_single_iff]
  exact Or.inr (Or.inr ⟨i, hcounts⟩)

/-! ## A loop and text behind it -/

/-- Text behind a loop changes neither its indentation nor where the rest of it starts. -/
theorem parts_append (h : startsLoop (dropIndent l) = true) (x : Text) :
    indent (l ++ x) = indent l ∧ dropIndent (l ++ x) = dropIndent l ++ x := by
  have hne : dropIndent l ≠ [] := by
    intro hnil
    rw [hnil] at h
    exact absurd h (by decide)
  have hhead : ∀ ch ∈ (dropIndent l ++ x).head?, isGap ch = false := by
    rw [List.head?_append_of_ne_nil _ hne]
    exact head_of_startsLoop h
  have hparts : l ++ x = indent l ++ (dropIndent l ++ x) := by
    rw [← List.append_assoc, indent_append_dropIndent]
  rw [hparts]
  exact ⟨indent_append isGap_of_mem_indent hhead, dropIndent_append isGap_of_mem_indent hhead⟩

theorem startsLoop_append (h : startsLoop y = true) (hx : ∀ ch ∈ x.head?, Text.isWord ch = false) :
    startsLoop (y ++ x) = true := by
  obtain ⟨w, hw, z, rfl, hz⟩ := startsLoop_iff.1 h
  refine startsLoop_iff.2 ⟨w, hw, z ++ x, by rw [List.append_assoc], ?_⟩
  cases z with
  | nil => exact hx
  | cons ch z => exact hz

theorem staysIn_append (h : startsLoop (dropIndent l) = true) (x : Text) : staysIn a (l ++ x) = staysIn a l := by
  obtain ⟨hindent, hrest⟩ := parts_append h x
  obtain ⟨w, hw, z, hz, -⟩ := startsLoop_iff.1 h
  have hwords : ∀ w ∈ ["for", "while"], w.toList.any (!isGap ·) = true := by decide
  obtain ⟨ch, hch, hgap⟩ := List.any_eq_true.1 (hwords w hw)
  have hmem : ch ∈ l := by
    rw [← indent_append_dropIndent l, hz]
    exact List.mem_append_right _ (List.mem_append_left _ hch)
  -- the loop word is no space or tab, so there is something on both lines
  have hblank : ∀ {v : Text}, ch ∈ v → v.all isGap = false := by
    intro v hv
    rw [List.all_eq_false]
    exact ⟨ch, hv, by simpa using hgap⟩
  have hhead : (dropIndent l ++ x).head? = (dropIndent l).head? := by
    rw [hz]
    simp only [List.mem_cons, List.not_mem_nil, or_false] at hw
    rcases hw with rfl | rfl <;> rfl
  rw [staysIn, staysIn, isDeeper, isDeeper, hindent, hrest, hhead, hblank hmem,
    hblank (List.mem_append_left x hmem)]

/-- What a line ends in is told behind the last character that is neither a colon nor a space or tab. -/
theorem endsInColon_behind {ch : Char} (hgap : isGap ch = false) (hne : ch ≠ ':') (x y : Text) :
    endsInColon (x ++ ch :: y) = endsInColon y := by
  unfold endsInColon
  rw [List.reverse_append, List.reverse_cons, List.append_assoc, List.singleton_append, List.dropWhile_append]
  cases hrest : y.reverse.dropWhile isGap with
  | nil => simp [hgap, hne]
  | cons d rest => rfl

theorem colon_mem_dropIndent (h : endsInColon l = true) : ':' ∈ dropIndent l := by
  obtain ⟨u, g, heq, -⟩ := endsInColon_iff.1 h
  have hmem : ':' ∈ indent l ++ dropIndent l := by
    rw [indent_append_dropIndent, heq]
    simp
  refine (List.mem_append.1 hmem).resolve_left fun hindent => ?_
  exact absurd (isGap_of_mem_indent _ hindent) (by decide)

/-! ## A text with a comment -/

/-- A line with a comment behind it. -/
def commented (w l : Text) : Text :=
  l ++ ' ' :: ' ' :: '#' :: w

/-- A text with a comment behind line `i`. -/
def withComment (t : Text) (i : Nat) (w : Text) : Text :=
  Text.joinLines ((Text.lines t).modify i (commented w))

theorem lines_withComment (hw : '\n' ∉ w) (t : Text) (i : Nat) :
    Text.lines (withComment t i w) = (Text.lines t).modify i (commented w) := by
  apply Text.lines_joinLines
  · rw [← List.length_pos_iff, List.length_modify, List.length_pos_iff]
    exact Text.splitWhen_ne_nil _ t
  · intro l hl
    obtain ⟨j, hj, rfl⟩ := List.mem_iff_getElem.1 hl
    rw [List.length_modify] at hj
    have hline := Text.no_end_of_mem_lines t _ (List.getElem_mem hj)
    rw [List.getElem_modify]
    split
    · simp [commented, hline, hw]
    · exact hline

theorem getD_commented_of_ne (h : j ≠ i) : (ls.modify i (commented w)).getD j [] = ls.getD j [] := by
  simp [List.getD_eq_getElem?_getD, Ne.symm h]

theorem getD_commented_self (h : i < ls.length) :
    (ls.modify i (commented w)).getD i [] = commented w (ls.getD i []) := by
  rw [List.getD_eq_getElem?_getD, List.getElem?_modify_eq, List.getD_eq_getElem?_getD,
    List.getElem?_eq_getElem h]
  rfl

section

variable (hloop : LoopAt ls i)
include hloop

/-- A comment behind a loop leaves indentation as it is. -/
theorem indent_commented (j : Nat) : indent ((ls.modify i (commented w)).getD j []) = indent (ls.getD j []) := by
  by_cases hj : j = i
  · subst hj
    rw [getD_commented_self hloop.lt, commented]
    exact (parts_append hloop _).1
  · rw [getD_commented_of_ne hj]

theorem staysIn_commented (j : Nat) :
    staysIn a ((ls.modify i (commented w)).getD j []) = staysIn a (ls.getD j []) := by
  by_cases hj : j = i
  · subst hj
    rw [getD_commented_self hloop.lt, commented]
    exact staysIn_append hloop _
  · rw [getD_commented_of_ne hj]

theorem loopAt_commented_self : LoopAt (ls.modify i (commented w)) i := by
  rw [LoopAt, getD_commented_self hloop.lt, commented, (parts_append hloop _).2]
  have hspace : Text.isWord ' ' = false := by decide
  exact startsLoop_append hloop (by simp [hspace])

theorem loopAt_commented_iff : LoopAt (ls.modify i (commented w)) j ↔ LoopAt ls j := by
  by_cases hj : j = i
  · subst hj
    exact ⟨fun _ => hloop, fun _ => loopAt_commented_self hloop⟩
  · rw [LoopAt, LoopAt, getD_commented_of_ne hj]

theorem encloses_commented_iff {k : Nat} : Encloses (ls.modify i (commented w)) j k ↔ Encloses ls j k := by
  simp only [Encloses, isDeeper, indent_commented hloop, staysIn_commented hloop]

/-- **A comment hides the colon in front of it**, unless it ends in a colon itself. -/
theorem headerAt_commented_iff (hcolon : endsInColon (ls.getD i []) = true) :
    HeaderAt (ls.modify i (commented w)) j ↔ HeaderAt ls j ∧ (j = i → endsInColon w = true) := by
  rw [HeaderAt, HeaderAt, loopAt_commented_iff hloop, List.length_modify]
  by_cases hj : j = i
  · subst hj
    have hends : endsInColon ((ls.modify j (commented w)).getD j []) = endsInColon w := by
      have hmark : commented w (ls.getD j []) = (ls.getD j [] ++ [' ', ' ']) ++ '#' :: w := by
        simp [commented]
      rw [getD_commented_self hloop.lt, hmark]
      exact endsInColon_behind (by decide) (by decide) _ _
    rw [hends]
    exact ⟨fun ⟨hl, hw, hlt⟩ => ⟨⟨hl, hcolon, hlt⟩, fun _ => hw⟩, fun ⟨⟨hl, _, hlt⟩, hw⟩ => ⟨hl, hw rfl, hlt⟩⟩
  · rw [getD_commented_of_ne hj]
    exact ⟨fun h => ⟨h, fun h' => absurd h' hj⟩, And.left⟩

/-- **A comment takes away exactly the nestings that go through its line**, as the header of a block. -/
theorem nestedLines_commented_iff (hcolon : endsInColon (ls.getD i []) = true) (l : List Nat) :
    NestedLines (ls.modify i (commented w)) l ↔
      NestedLines ls l ∧ (i ∈ l.dropLast → endsInColon w = true) := by
  -- along the nesting; the last line is no header, so it is not asked to end in a colon
  induction l with
  | nil => simp [NestedLines]
  | cons j l ih =>
    cases l with
    | nil => simp [NestedLines, loopAt_commented_iff hloop]
    | cons k l =>
      rw [NestedLines, NestedLines, ih, headerAt_commented_iff hloop hcolon, encloses_commented_iff hloop,
        List.dropLast_cons_cons, List.mem_cons]
      constructor
      · rintro ⟨⟨hj, hhere⟩, hjk, hrest, hbelow⟩
        exact ⟨⟨hj, hjk, hrest⟩, fun h => h.elim (fun h => hhere h.symm) hbelow⟩
      · rintro ⟨⟨hj, hjk, hrest⟩, h⟩
        exact ⟨⟨hj, fun heq => h (Or.inl heq.symm)⟩, hjk, hrest, fun hmem => h (Or.inr hmem)⟩

end

end IndentedLoop

namespace Estimate

open IndentedLoop

variable {t w : Text} {i n : Nat}

/-- **The growth of time with a comment behind a header**, told by the lines without the comment. -/
theorem le_rank_withComment_iff (hloop : LoopAt (Text.lines t) i)
    (hcolon : endsInColon ((Text.lines t).getD i []) = true) (hw : '\n' ∉ w) (hn : 1 ≤ n) (hle : n ≤ 3) :
    n ≤ (ofTime .python (withComment t i w)).growth.rank ↔
      ∃ l, l.length = n ∧ NestedLines (Text.lines t) l ∧ (i ∈ l.dropLast → endsInColon w = true) := by
  -- the line counts as a loop with the comment too, since its colon is still there
  obtain rfl | hn : n = 1 ∨ 2 ≤ n := by omega
  · have hloop' : LoopAt (Text.lines (withComment t i w)) i := by
      rw [lines_withComment hw]
      exact loopAt_commented_self hloop
    have hmem : ':' ∈ dropIndent ((Text.lines (withComment t i w)).getD i []) := by
      rw [lines_withComment hw, getD_commented_self hloop.lt, commented, (parts_append hloop _).2]
      exact List.mem_append_left _ (colon_mem_dropIndent hcolon)
    exact ⟨fun _ => ⟨[i], rfl, hloop, fun h => by cases h⟩, fun _ => linear_le_of_loopAt hloop' hmem⟩
  · rw [le_rank_indentedTime_iff hn hle, lines_withComment hw]
    simp only [nestedLines_commented_iff hloop hcolon]

/-- **When a comment behind a header leaves the estimate as it is.** Growth stays at least linear and never gets
larger; and the estimate is the same exactly if the comment ends in a colon, or some loops that are nested as deep
as the estimate tells do not need the header. -/
theorem ofTime_withComment_iff (hloop : LoopAt (Text.lines t) i)
    (hcolon : endsInColon ((Text.lines t).getD i []) = true) (hw : '\n' ∉ w) :
    let growth := (ofTime .python t).growth
    let growth' := (ofTime .python (withComment t i w)).growth
    .linear ≤ growth' ∧ growth' ≤ growth ∧
      (ofTime .python (withComment t i w) = ofTime .python t ↔ endsInColon w = true ∨
        ∃ l, l.length = growth.rank ∧ NestedLines (Text.lines t) l ∧ i ∉ l.dropLast) := by
  intro growth growth'
  have hlinear : .linear ≤ growth := linear_le_of_loopAt hloop (colon_mem_dropIndent hcolon)
  have hrank : growth'.rank ≤ 3 := growth'.le_cubic
  have hrank₀ : growth.rank ≤ 3 := growth.le_cubic
  have hlinear' : .linear ≤ growth' :=
    (le_rank_withComment_iff hloop hcolon hw le_rfl (by decide)).2
      ⟨[i], rfl, hloop, fun h => by cases h⟩
  have hle : growth' ≤ growth := by
    obtain ⟨l, hl, hnested, -⟩ := (le_rank_withComment_iff hloop hcolon hw hlinear' hrank).1 le_rfl
    -- one loop alone is told by its colon, and not by nesting
    by_cases hone : growth'.rank ≤ 1
    · exact le_trans hone hlinear
    · exact (le_rank_indentedTime_iff (by omega) hrank).2 ⟨l, hl, hnested⟩
  refine ⟨hlinear', hle, ?_⟩
  have hsame : ofTime .python (withComment t i w) = ofTime .python t ↔ growth.rank ≤ growth'.rank := by
    constructor
    · intro h
      exact le_of_eq (congrArg (·.growth.rank) h).symm
    · intro h
      have hgrowth : growth' = growth := le_antisymm hle h
      exact congrArg time hgrowth
  rw [hsame, le_rank_withComment_iff hloop hcolon hw hlinear hrank₀]
  constructor
  · rintro ⟨l, hl, hnested, h⟩
    by_cases hmem : i ∈ l.dropLast
    · exact Or.inl (h hmem)
    · exact Or.inr ⟨l, hl, hnested, hmem⟩
  · rintro (hends | ⟨l, hl, hnested, hmem⟩)
    · by_cases hone : growth.rank ≤ 1
      · have heq : growth.rank = 1 := le_antisymm hone hlinear
        exact ⟨[i], heq.symm, hloop, fun h => by cases h⟩
      · obtain ⟨l, hl, hnested⟩ := (le_rank_indentedTime_iff (by omega) hrank₀).1 le_rfl
        exact ⟨l, hl, hnested, fun _ => hends⟩
    · exact ⟨l, hl, hnested, fun h => absurd h hmem⟩

/-- A comment behind the first of two loops that both hold a loop. -/
theorem ofTime_withComment_iff_twice :
    let t := "for a in x:\n  for b in x:\n    y\nwhile c:\n\tfor d in x:\n\t\ty\n".toList
    let w := " all".toList
    LoopAt (Text.lines t) 0 ∧ endsInColon ((Text.lines t).getD 0 []) = true ∧ '\n' ∉ w ∧
      ofTime .python t = time .quadratic ∧ ofTime .python (withComment t 0 w) = time .quadratic := by
  intro t w
  have hloop : LoopAt (Text.lines t) 0 := by decide +kernel
  have hcolon : endsInColon ((Text.lines t).getD 0 []) = true := by decide +kernel
  have hw : '\n' ∉ w := by decide +kernel
  have htime : ofTime .python t = time .quadratic := by decide +kernel
  have hother : NestedLines (Text.lines t) [3, 4] := by decide +kernel
  refine ⟨hloop, hcolon, hw, htime, ?_⟩
  rw [← htime]
  refine (ofTime_withComment_iff hloop hcolon hw).2.2.2 (Or.inr ⟨[3, 4], ?_, hother, by decide⟩)
  rw [htime]
  rfl

/-- **A comment makes two loops in one another look like one.** -/
theorem comment_hides_header :
    let t := "for a in x:\n  for b in x:\n    pass\n".toList
    LoopAt (Text.lines t) 0 ∧ ((Text.lines t).getD 0 []).getLast? = some ':' ∧
      withComment t 0 " c".toList = "for a in x:  # c\n  for b in x:\n    pass\n".toList ∧
      ofTime .python t = time .quadratic ∧ ofTime .python (withComment t 0 " c".toList) = time .linear := by
  decide +kernel

end Estimate

end CodeSurvey
