import CodeSurvey.Proofs.Pattern.Seam
import CodeSurvey.Proofs.Text.LineCut

/-!
# Lines that are indented anew

Two texts have the same lines but for the spaces and tabs that the lines start with. One can be made of the other by
putting in single gaps, and taking out single gaps, each at the start of a text or behind a line end, a space or a tab.
So whatever is not changed by one more gap is the same for both texts.

There may be places where a gap does matter. If it matters only whether there is one at all, then texts still agree as
long as the same lines are indented there.

* `Reindented`: texts whose lines are indented anew.
* `Barred`: places where a first gap matters.
* `eq_of_indent`: another indentation of one line.
* `eq_of_reindented`: another indentation of all lines.
-/

namespace CodeSurvey.Text

open Pattern (isGap)

/-- **Two texts whose lines differ in nothing but the spaces and tabs they start with.** -/
def Reindented (t u : Text) : Prop :=
  (lines t).map dropIndent = (lines u).map dropIndent

instance (t u : Text) : Decidable (Reindented t u) :=
  inferInstanceAs (Decidable (_ = _))

theorem Reindented.symm {t u : Text} (h : Reindented t u) : Reindented u t :=
  Eq.symm h

theorem unlines_append (ls ms : List Text) : unlines (ls ++ ms) = unlines ls ++ unlines ms :=
  List.flatMap_append

theorem isBreak_last_unlines (ls : List Text) : ∀ ch ∈ (unlines ls).getLast?, isBreak ch = true := by
  rcases List.eq_nil_or_concat ls with rfl | ⟨init, line, rfl⟩
  · simp [unlines]
  · intro ch hch
    rw [List.concat_eq_append, unlines_append, unlines_cons] at hch
    obtain rfl : '\n' = ch := by simpa [unlines] using hch
    rfl

theorem joinLines_indent (line : Text) (rest : List Text) :
    joinLines (line :: rest) = indent line ++ joinLines (dropIndent line :: rest) := by
  rw [joinLines, joinLines, ← join_append_head, indent_append_dropIndent]

/-- Places between two texts where a gap matters, but only if there is none yet. -/
structure Barred (bars : Text → Text → Prop) : Prop where
  behind : ∀ {x y : Text}, bars x y → ∀ ch ∈ y.head?, isGap ch = false
  inFront : ∀ {x v y : Text}, bars (x ++ v) y → (∀ ch ∈ v, isGap ch = true) →
    (∀ ch ∈ x.getLast?, isBreak ch = true) → v = []

theorem barred_never : Barred fun _ _ => False :=
  ⟨False.elim, False.elim⟩

section

variable {β : Type} {f : Text → β} {bars : Text → Text → Prop} {v v' x y : Text}
variable (hbars : Barred bars) (hstep : ∀ w : Widening, ¬ bars w.front w.back → f w.wide = f w.narrow)

include hbars hstep

/-- Gaps that are put in one by one. -/
theorem eq_of_gaps (hv : ∀ ch ∈ v, isGap ch = true) (hx : ∀ ch ∈ x.getLast?, isBreak ch = true) (h : ¬ bars x y) :
    f (x ++ (v ++ y)) = f (x ++ y) := by
  induction v with
  | nil => rfl
  | cons g v ih =>
    have hv' : ∀ ch ∈ v, isGap ch = true := fun ch hch => hv ch (List.mem_cons_of_mem g hch)
    have hfree : ¬ bars x (v ++ y) := by
      intro hbar
      cases v with
      | nil => exact h hbar
      | cons z v =>
        have hz := hbars.behind hbar z rfl
        rw [hv' z List.mem_cons_self] at hz
        exact absurd hz (by simp)
    exact (hstep ⟨x, g, v ++ y, hv g List.mem_cons_self, hx⟩ hfree).trans (ih hv')

/-- **One indentation is as good as another**, where there is one in both cases or in neither, or where it does not
matter. -/
theorem eq_of_indent (hv : ∀ ch ∈ v, isGap ch = true) (hv' : ∀ ch ∈ v', isGap ch = true)
    (hx : ∀ ch ∈ x.getLast?, isBreak ch = true) (h : bars x y → (v = [] ↔ v' = [])) :
    f (x ++ (v ++ y)) = f (x ++ (v' ++ y)) := by
  by_cases hbar : bars x y
  · by_cases hnil : v = []
    · rw [hnil, (h hbar).1 hnil]
    · -- both indentations, one behind the other, can be reached from either
      have hnil' : v' ≠ [] := fun h' => hnil ((h hbar).2 h')
      have hlast : ∀ ch ∈ (x ++ v).getLast?, isBreak ch = true := by
        intro ch hch
        have hmem : ch ∈ v := by
          rw [List.getLast?_append_of_ne_nil x hnil] at hch
          exact List.mem_of_getLast? hch
        rw [isBreak, hv ch hmem, Bool.or_true]
      have hfirst : f ((x ++ v) ++ (v' ++ y)) = f ((x ++ v) ++ y) :=
        eq_of_gaps hbars hstep hv' hlast fun hbar' => hnil (hbars.inFront hbar' hv hx)
      have hsecond : f (x ++ (v ++ (v' ++ y))) = f (x ++ (v' ++ y)) := by
        refine eq_of_gaps hbars hstep hv hx fun hbar' => ?_
        obtain ⟨z, rest, rfl⟩ := List.exists_cons_of_ne_nil hnil'
        have hz := hbars.behind hbar' z rfl
        rw [hv' z List.mem_cons_self] at hz
        exact absurd hz (by simp)
      rw [List.append_assoc, List.append_assoc] at hfirst
      exact hfirst.symm.trans hsecond
  · exact (eq_of_gaps hbars hstep hv hx hbar).trans (eq_of_gaps hbars hstep hv' hx hbar).symm

/-- Lines are indented anew one by one, behind those that already are. -/
theorem eq_of_lines : ∀ (ls ls' done : List Text), ls.map dropIndent = ls'.map dropIndent →
    (∀ k line line', ls[k]? = some line → ls'[k]? = some line' →
      bars (unlines (done ++ ls'.take k)) (joinLines (dropIndent line :: ls.drop (k + 1))) →
      (indent line = [] ↔ indent line' = [])) →
    f (unlines done ++ joinLines ls) = f (unlines done ++ joinLines ls') := by
  intro ls
  induction ls with
  | nil =>
    intro ls' done hmap _
    rw [List.map_eq_nil_iff.1 hmap.symm]
  | cons line rest ih =>
    intro ls' done hmap hsteady
    obtain ⟨line', rest', rfl⟩ : ∃ line' rest', ls' = line' :: rest' := by
      cases ls' with
      | nil => exact absurd hmap (by simp)
      | cons line' rest' => exact ⟨line', rest', rfl⟩
    rw [List.map_cons, List.map_cons, List.cons.injEq] at hmap
    have hfirst : f (unlines done ++ joinLines (line :: rest)) = f (unlines done ++ joinLines (line' :: rest)) := by
      have hindent := eq_of_indent hbars hstep (y := joinLines (dropIndent line :: rest)) isGap_of_mem_indent
        isGap_of_mem_indent (isBreak_last_unlines done) fun hbar => hsteady 0 line line' rfl rfl (by simpa using hbar)
      rw [joinLines_indent line rest, joinLines_indent line' rest, ← hmap.1]
      exact hindent
    by_cases hrest : rest = []
    · have hrest' : rest' = [] := by
        rw [hrest] at hmap
        exact List.map_eq_nil_iff.1 hmap.2.symm
      rw [hfirst, hrest, hrest']
    · have hrest' : rest' ≠ [] := by
        rintro rfl
        exact hrest (List.map_eq_nil_iff.1 hmap.2)
      have hmove : ∀ {ms : List Text}, ms ≠ [] →
          unlines done ++ joinLines (line' :: ms) = unlines (done ++ [line']) ++ joinLines ms := by
        intro ms hms
        rw [joinLines_cons line' hms, unlines_append, unlines_cons]
        simp [unlines]
      rw [hfirst, hmove hrest, hmove hrest']
      apply ih rest' (done ++ [line']) hmap.2
      intro k l l' hl hl' hbar
      apply hsteady (k + 1) l l' hl hl'
      simpa using hbar

/-- **What does not change with one more gap does not change when lines are indented anew.** -/
theorem eq_of_reindented {t u : Text} (h : Reindented t u)
    (hsteady : ∀ k line line', (lines t)[k]? = some line → (lines u)[k]? = some line' →
      bars (unlines ((lines u).take k)) (joinLines (dropIndent line :: (lines t).drop (k + 1))) →
      (indent line = [] ↔ indent line' = [])) : f t = f u := by
  have hlines := eq_of_lines hbars hstep (lines t) (lines u) [] h hsteady
  simpa only [unlines, List.flatMap_nil, List.nil_append, joinLines_lines] using hlines

end

end CodeSurvey.Text
