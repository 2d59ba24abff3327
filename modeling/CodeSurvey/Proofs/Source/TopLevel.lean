import CodeSurvey.Proofs.Source.Brackets
import CodeSurvey.Proofs.Text.Lines

/-!
# Splitting at the top level, part by part

A text is cut at the separators that stand at depth zero, and at no others, however its brackets are closed. So nothing
is lost: the pieces with the separator between them are the text, even if the separator is a bracket itself. A comma at
depth zero stands between two pieces, and one inside brackets stands in a piece.

* `join_splitFrom`: the pieces with the separator between them are the text.
* `split_of_depth_pos`: a comma inside brackets is part of a piece.
* `splitText_lossless`: nothing is lost, and a comma cuts or not.
-/

namespace CodeSurvey.Brackets

/-- **Nothing is lost**: the pieces with the separator between them are the text. -/
theorem join_splitFrom (separator : Char) (t : Text) : ∀ previous depth,
    Text.join [separator] (splitFrom separator previous depth t) = t := by
  induction t with
  | nil => exact fun _ _ => Text.join_singleton _ _
  | cons c rest ih =>
    intro previous depth
    have hrest := ih (some c) (depthAfter previous depth c)
    obtain ⟨piece, pieces, hsplit⟩ := List.exists_cons_of_ne_nil
      (splitFrom_ne_nil separator rest (some c) (depthAfter previous depth c))
    rw [hsplit] at hrest
    rw [splitFrom_cons, hsplit]
    split
    · rename_i hcut
      rw [Text.join_cons_cons, hrest, hcut.1]
      rfl
    · have hhead := Text.join_append_head [separator] [c] piece pieces
      rw [hrest] at hhead
      exact hhead

/-- **A comma inside brackets stays inside a piece**, with what stands in front of it in this piece and the ones before,
and what stands behind it in this piece and the ones after. -/
theorem split_of_depth_pos {a : Text} (hdepth : 0 < finalDepth none 0 a) (b : Text) : ∃ front x y back,
    split ',' (a ++ ',' :: b) = front ++ (x ++ ',' :: y) :: back ∧
    Text.join [','] (front ++ [x]) = a ∧ Text.join [','] (y :: back) = b := by
  obtain ⟨front, x, first, back, ha, hb, hjoined⟩ := splitFrom_append ',' a (',' :: b) none 0
  obtain ⟨y, pieces, hbehind⟩ := List.exists_cons_of_ne_nil (splitFrom_ne_nil ',' b none (finalDepth none 0 a))
  rw [splitFrom_comma_cons, if_neg (Nat.ne_of_gt hdepth), hbehind, List.modifyHead_cons, List.cons.injEq] at hb
  refine ⟨front, x, y, pieces, ?_, ?_, ?_⟩
  · rw [split, hjoined, ← hb.1, ← hb.2]
  · rw [← ha, join_splitFrom]
  · rw [← hbehind, join_splitFrom]

/-- **Splitting at the top level loses nothing and composes.** For any separator, the pieces with the separator between
them are the text. A comma behind a text that ends at depth zero cuts between the pieces of its two sides, and a comma
behind a text that ends inside brackets is part of one piece. -/
theorem splitText_lossless (separator a b : Text) :
    Text.join separator (splitText separator a) = a ∧
    (finalDepth none 0 a = 0 → splitText [','] (a ++ ',' :: b) = splitText [','] a ++ splitText [','] b) ∧
    (0 < finalDepth none 0 a → ∃ front x y back, splitText [','] (a ++ ',' :: b) = front ++ (x ++ ',' :: y) :: back ∧
      Text.join [','] (front ++ [x]) = a ∧ Text.join [','] (y :: back) = b) := by
  refine ⟨?_, fun hdepth => split_of_depth_zero hdepth b, fun hdepth => split_of_depth_pos hdepth b⟩
  unfold splitText
  split
  · exact join_splitFrom _ a none 0
  · exact Text.join_singleton separator a

/-- Behind a stray closer a comma cuts; behind an arrow and an angle that is left open it does not. -/
theorem splitText_lossless_angles :
    let closed : Text := "a)<b>".toList
    let opened : Text := "a) => <b".toList
    finalDepth none 0 closed = 0 ∧
    splitText [','] (closed ++ ',' :: opened) = splitText [','] closed ++ splitText [','] opened ∧
    0 < finalDepth none 0 opened ∧
    ∃ front x y back, splitText [','] (opened ++ ',' :: closed) = front ++ (x ++ ',' :: y) :: back ∧
      Text.join [','] (front ++ [x]) = opened ∧ Text.join [','] (y :: back) = closed := by
  intro closed opened
  have hclosed : finalDepth none 0 closed = 0 := by decide
  have hopened : 0 < finalDepth none 0 opened := by decide
  exact ⟨hclosed, (splitText_lossless [','] closed opened).2.1 hclosed, hopened,
    (splitText_lossless [','] opened closed).2.2 hopened⟩

end CodeSurvey.Brackets
