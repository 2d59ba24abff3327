import Mathlib.Data.List.TakeWhile
import CodeSurvey.Proofs.Pattern.Width

/-!
# The texts a pattern can read

What a reading takes is a text that the pattern spells, whatever its tests say about the
surroundings. That much is often enough to see that a pattern cannot be read at a place: the text
there has a character that the pattern lacks, or starts with one it cannot start with.

* `Spelled`: the texts of a pattern, its tests left out.
* `exists_spelled`: every outcome has passed a spelled text.
* `lacks`, `mayStart`: the characters that spelled texts do not hold, and those they may start with,
  by recursion on the pattern.
-/

namespace CodeSurvey.Pattern

/-- The texts of a pattern, its tests left out. -/
def Spelled : Pattern → Text → Prop
  | .empty, x => x = []
  | .one accepts, x => ∃ c, accepts c = true ∧ x = [c]
  | .text chars, x => x = chars
  | .seq p q, x => ∃ u v, p.Spelled u ∧ q.Spelled v ∧ x = u ++ v
  | .alt p q, x => p.Spelled x ∨ q.Spelled x
  | .span accepts, x => ∀ c ∈ x, accepts c = true
  | .many _ p, x => ∃ pieces : List Text, (∀ y ∈ pieces, p.Spelled y) ∧ x = pieces.flatten
  | .group _ p, x => p.Spelled x
  | .again _, _ => True
  | _, x => x = []

variable {limit : Nat} {p q q' : Pattern} {x : Text} {ch : Char}

theorem spelled_append : (p ++ q).Spelled x ↔ ∃ u v, p.Spelled u ∧ q.Spelled v ∧ x = u ++ v :=
  Iff.rfl

theorem spelled_append_assoc : (p ++ q ++ q').Spelled x ↔ (p ++ (q ++ q')).Spelled x := by
  simp only [spelled_append]
  constructor
  · rintro ⟨_, w, ⟨u, v, hu, hv, rfl⟩, hw, rfl⟩
    exact ⟨u, v ++ w, hu, ⟨v, w, hv, hw, rfl⟩, by simp⟩
  · rintro ⟨u, _, hu, ⟨v, w, hv, hw, rfl⟩, rfl⟩
    exact ⟨u ++ v, w, ⟨u, v, hu, hv, rfl⟩, hw, by simp⟩

/-! ## Outcomes -/

/-- A step repeated passes pieces that the step passes. -/
theorem repeated_spelled {order : Order} {step : Reading → List Reading} {S : Text → Prop}
    (hstep : ∀ r s, s ∈ step r → ∃ x, S x ∧ r.cursor.after = x ++ s.cursor.after) :
    ∀ n r s, s ∈ repeated order step n r →
      ∃ pieces : List Text, (∀ y ∈ pieces, S y) ∧
        r.cursor.after = pieces.flatten ++ s.cursor.after := by
  intro n
  induction n with
  | zero =>
    intro r s hs
    rw [repeated, List.mem_singleton] at hs
    exact ⟨[], by simp, by simp [hs]⟩
  | succ n ih =>
    intro r s hs
    rcases mem_repeated_succ hs with rfl | ⟨u, hu, hs⟩
    · exact ⟨[], by simp, by simp⟩
    · obtain ⟨x, hx, hafter⟩ := hstep r u hu
      obtain ⟨pieces, hpieces, hrest⟩ := ih u s hs
      refine ⟨x :: pieces, ?_, by rw [hafter, hrest]; simp⟩
      intro y hy
      rcases List.mem_cons.1 hy with rfl | hy
      · exact hx
      · exact hpieces y hy

/-- **Every outcome has passed a text that the pattern spells.** -/
theorem exists_spelled (p : Pattern) : ∀ r s, s ∈ p.outcomes limit r →
    ∃ x, p.Spelled x ∧ r.cursor.after = x ++ s.cursor.after := by
  induction p with
  | one accepts =>
    intro r s hs
    rw [outcomes, Cursor.pass?_eq] at hs
    split at hs
    · rename_i hnext
      simp only [Option.map_some, Option.toList_some, List.mem_singleton] at hs
      subst hs
      unfold Cursor.nextIs at hnext
      cases hafter : r.cursor.after with
      | nil => rw [hafter] at hnext; simp at hnext
      | cons c rest =>
        rw [hafter] at hnext
        exact ⟨[c], ⟨c, hnext, rfl⟩, by simp [hafter]⟩
    · simp at hs
  | text chars =>
    intro r s hs
    rw [outcomes, Cursor.passText?_eq] at hs
    split at hs
    · rename_i hpre
      simp only [Option.map_some, Option.toList_some, List.mem_singleton] at hs
      subst hs
      obtain ⟨rest, hrest⟩ := hpre
      exact ⟨chars, rfl, by simp [← hrest]⟩
    · simp at hs
  | seq p q ihp ihq =>
    intro r s hs
    rw [outcomes, List.mem_flatMap] at hs
    obtain ⟨u, hu, hs⟩ := hs
    obtain ⟨x, hx, hafter⟩ := ihp r u hu
    obtain ⟨y, hy, hrest⟩ := ihq u s hs
    exact ⟨x ++ y, ⟨x, y, hx, hy, rfl⟩, by rw [hafter, hrest, List.append_assoc]⟩
  | alt p q ihp ihq =>
    intro r s hs
    rw [outcomes, List.mem_append] at hs
    rcases hs with hs | hs
    · obtain ⟨x, hx, hafter⟩ := ihp r s hs
      exact ⟨x, Or.inl hx, hafter⟩
    · obtain ⟨x, hx, hafter⟩ := ihq r s hs
      exact ⟨x, Or.inr hx, hafter⟩
  | span accepts =>
    intro r s hs
    rw [outcomes, Cursor.reaches] at hs
    simp only [List.mem_map, List.mem_reverse, List.mem_range] at hs
    obtain ⟨c, ⟨k, hk, rfl⟩, rfl⟩ := hs
    refine ⟨r.cursor.after.take k, fun c hc => ?_, by simp⟩
    -- the characters passed are among the accepted ones in front
    have hpre : r.cursor.after.take k = (r.cursor.after.takeWhile accepts).take k := by
      obtain ⟨rest, hrest⟩ := List.takeWhile_prefix (l := r.cursor.after) accepts
      conv_lhs => rw [← hrest]
      exact List.take_append_of_le_length (by omega)
    rw [hpre] at hc
    exact List.mem_takeWhile_imp (List.mem_of_mem_take hc)
  | many order p ih =>
    intro r s hs
    obtain ⟨pieces, hpieces, hafter⟩ := repeated_spelled ih limit r s hs
    exact ⟨_, ⟨pieces, hpieces, rfl⟩, hafter⟩
  | group label p ih =>
    intro r s hs
    rw [outcomes, List.mem_map] at hs
    obtain ⟨u, hu, rfl⟩ := hs
    exact ih r u hu
  | again label =>
    intro r s hs
    obtain ⟨k, hk⟩ := exists_moves _ _ _ hs
    exact ⟨r.cursor.after.take k, trivial, by simp [hk.cursor]⟩
  | empty =>
    intro r s hs
    rw [outcomes, List.mem_singleton] at hs
    exact ⟨[], rfl, by simp [hs]⟩
  | ahead p _ | notAhead p _ | behind a | notBehind a | edge | lineStart | lineEnd | textEnd =>
    intro r s hs
    rw [outcomes] at hs
    split at hs
    all_goals
      simp only [List.mem_singleton, List.not_mem_nil] at hs
      try exact ⟨[], rfl, by simp [hs]⟩

/-- A pattern has no outcome where no text it spells stands. -/
theorem outcomes_eq_nil_of_spelled {r : Reading} (h : ∀ x, p.Spelled x → ¬ x <+: r.cursor.after) :
    p.outcomes limit r = [] := by
  rw [List.eq_nil_iff_forall_not_mem]
  intro s hs
  obtain ⟨x, hx, hafter⟩ := exists_spelled p r s hs
  exact h x hx ⟨_, hafter.symm⟩

theorem readAt?_eq_none {c : Cursor} (h : ∀ x, p.Spelled x → ¬ x <+: c.after) :
    p.readAt? limit c = none := by
  rw [readAt?_eq, outcomes_eq_nil_of_spelled h]
  rfl

/-! ## Characters -/

/-- Whether no spelled text holds a character, as far as can be told from the pattern. -/
def lacks (ch : Char) : Pattern → Bool
  | .one accepts => !accepts ch
  | .text chars => !chars.contains ch
  | .seq p q => p.lacks ch && q.lacks ch
  | .alt p q => p.lacks ch && q.lacks ch
  | .span accepts => !accepts ch
  | .many _ p => p.lacks ch
  | .group _ p => p.lacks ch
  | .again _ => false
  | _ => true

theorem notMem_of_lacks (h : p.lacks ch = true) (hx : p.Spelled x) : ch ∉ x := by
  induction p generalizing x with
  | one accepts =>
    obtain ⟨c, hc, rfl⟩ := hx
    rw [List.mem_singleton]
    rintro rfl
    simp [lacks, hc] at h
  | text chars =>
    obtain rfl : x = chars := hx
    simpa [lacks] using h
  | seq p q ihp ihq =>
    obtain ⟨u, v, hu, hv, rfl⟩ := hx
    simp only [lacks, Bool.and_eq_true] at h
    rw [List.mem_append, not_or]
    exact ⟨ihp h.1 hu, ihq h.2 hv⟩
  | alt p q ihp ihq =>
    simp only [lacks, Bool.and_eq_true] at h
    rcases hx with hx | hx
    · exact ihp h.1 hx
    · exact ihq h.2 hx
  | span accepts =>
    intro hmem
    simp [lacks, hx ch hmem] at h
  | many order p ih =>
    obtain ⟨pieces, hpieces, rfl⟩ := hx
    rw [List.mem_flatten]
    rintro ⟨y, hy, hmem⟩
    exact ih h (hpieces y hy) hmem
  | group label p ih => exact ih h hx
  | again label => simp [lacks] at h
  | empty | ahead p _ | notAhead p _ | behind a | notBehind a | edge | lineStart | lineEnd
    | textEnd =>
    obtain rfl : x = [] := hx
    simp

/-- Whether a spelled text may start with a character, as far as can be told from the pattern. -/
def mayStart (ch : Char) : Pattern → Bool
  | .one accepts => accepts ch
  | .text chars => chars.head? == some ch
  | .seq p q => p.mayStart ch || (p.minWidth == 0 && q.mayStart ch)
  | .alt p q => p.mayStart ch || q.mayStart ch
  | .span accepts => accepts ch
  | .many _ p => p.mayStart ch
  | .group _ p => p.mayStart ch
  | .again _ => true
  | _ => false

theorem minWidth_le_length (hx : p.Spelled x) : p.minWidth ≤ x.length := by
  induction p generalizing x with
  | one accepts =>
    obtain ⟨c, -, rfl⟩ := hx
    simp [minWidth]
  | text chars =>
    obtain rfl : x = chars := hx
    simp [minWidth]
  | seq p q ihp ihq =>
    obtain ⟨u, v, hu, hv, rfl⟩ := hx
    have hp := ihp hu
    have hq := ihq hv
    simp only [minWidth, List.length_append]
    omega
  | alt p q ihp ihq =>
    simp only [minWidth]
    rcases hx with hx | hx
    · exact Nat.le_trans (Nat.min_le_left _ _) (ihp hx)
    · exact Nat.le_trans (Nat.min_le_right _ _) (ihq hx)
  | group label p ih => exact ih hx
  | _ => simp [minWidth]

theorem mayStart_of_spelled (hx : p.Spelled (ch :: x)) : p.mayStart ch = true := by
  induction p generalizing x with
  | one accepts =>
    obtain ⟨c, hc, heq⟩ := hx
    simp only [List.cons.injEq] at heq
    rw [mayStart, heq.1, hc]
  | text chars =>
    obtain rfl : ch :: x = chars := hx
    simp [mayStart]
  | seq p q ihp ihq =>
    obtain ⟨u, v, hu, hv, heq⟩ := hx
    rw [mayStart, Bool.or_eq_true, Bool.and_eq_true]
    cases u with
    | nil =>
      -- nothing read by the first shape
      have hwidth : p.minWidth = 0 := by simpa using minWidth_le_length hu
      rw [List.nil_append] at heq
      exact Or.inr ⟨by simp [hwidth], ihq (heq ▸ hv)⟩
    | cons d u =>
      obtain ⟨rfl, -⟩ : ch = d ∧ x = u ++ v := by simpa using heq
      exact Or.inl (ihp hu)
  | alt p q ihp ihq =>
    rw [mayStart, Bool.or_eq_true]
    rcases hx with hx | hx
    · exact Or.inl (ihp hx)
    · exact Or.inr (ihq hx)
  | span accepts => exact hx ch List.mem_cons_self
  | many order p ih =>
    obtain ⟨pieces, hpieces, heq⟩ := hx
    induction pieces with
    | nil => simp at heq
    | cons y pieces ihpieces =>
      cases y with
      | nil =>
        exact ihpieces (fun z hz => hpieces z (List.mem_cons_of_mem _ hz)) (by simpa using heq)
      | cons d y =>
        obtain ⟨rfl, -⟩ : ch = d ∧ x = y ++ pieces.flatten := by simpa using heq
        exact ih (hpieces _ List.mem_cons_self)
  | group label p ih => exact ih hx
  | again label => rfl
  | empty | ahead p _ | notAhead p _ | behind a | notBehind a | edge | lineStart | lineEnd
    | textEnd =>
    exact absurd (show ch :: x = [] from hx) (by simp)

end CodeSurvey.Pattern
