import CodeSurvey.Proofs.Pattern.Outcomes

/-!
# How far a reading goes, and what its groups hold

Two things can be told from a pattern alone: the least number of characters a reading takes, and the
groups whose texts it can remember. Every outcome keeps to them.

* `minWidth`, `groups`: the two, by recursion on the pattern.
* `Moves`: what one reading does to the cursor and to the captures.
* `exists_moves`: every outcome of a pattern moves as the pattern says.
-/

namespace CodeSurvey.Pattern

/-- The least number of characters that a reading takes. -/
def minWidth : Pattern → Nat
  | .one _ => 1
  | .text chars => chars.length
  | .seq p q => p.minWidth + q.minWidth
  | .alt p q => min p.minWidth q.minWidth
  | .group _ p => p.minWidth
  | _ => 0

/-- The groups of a pattern that can remember a text. What a test reads is forgotten, and so the
groups inside it are left out. -/
def groups : Pattern → List (Label × Pattern)
  | .seq p q => p.groups ++ q.groups
  | .alt p q => p.groups ++ q.groups
  | .many _ p => p.groups
  | .group label p => (label, p) :: p.groups
  | _ => []

/-- **What a reading does**: it goes `k` characters on, at least `width`, and each capture was there
before or is the text of one of the groups `G`, read on the way. -/
structure Moves (width : Nat) (G : List (Label × Pattern)) (r s : Reading) (k : Nat) : Prop where
  width_le : width ≤ k
  le_length : k ≤ r.cursor.after.length
  cursor : s.cursor = r.cursor.advance k
  captures : ∀ c ∈ s.captures, c ∈ r.captures ∨ ∃ q i j, (c.label, q) ∈ G ∧
    c.start = r.cursor.advance i ∧ c.stop = r.cursor.advance j ∧ i + q.minWidth ≤ j ∧ j ≤ k

namespace Moves

variable {w w' k k' : Nat} {G G' : List (Label × Pattern)} {r s u : Reading}

/-- A test that succeeds. -/
theorem refl (r : Reading) : Moves 0 G r r 0 :=
  ⟨Nat.le_refl 0, Nat.zero_le _, by simp, fun _ hc => Or.inl hc⟩

/-- Characters that are read without a group. -/
theorem step (hk : k ≤ r.cursor.after.length) :
    Moves k G r ⟨r.cursor.advance k, r.captures⟩ k :=
  ⟨Nat.le_refl k, hk, rfl, fun _ hc => Or.inl hc⟩

theorem weaken (h : Moves w G r s k) (hw : w' ≤ w) (hG : ∀ g ∈ G, g ∈ G') : Moves w' G' r s k := by
  refine ⟨Nat.le_trans hw h.width_le, h.le_length, h.cursor, fun c hc => ?_⟩
  rcases h.captures c hc with hold | ⟨q, i, j, hq, hrest⟩
  · exact Or.inl hold
  · exact Or.inr ⟨q, i, j, hG _ hq, hrest⟩

/-- One reading after another. -/
theorem trans (h : Moves w G r s k) (h' : Moves w' G' s u k') :
    Moves (w + w') (G ++ G') r u (k + k') := by
  have hlen : k' ≤ r.cursor.after.length - k := by
    have := h'.le_length
    rw [h.cursor] at this
    simpa using this
  have hk := h.le_length
  refine ⟨Nat.add_le_add h.width_le h'.width_le, by omega, ?_, fun c hc => ?_⟩
  · rw [h'.cursor, h.cursor, Cursor.advance_advance]
  · rcases h'.captures c hc with hold | ⟨q, i, j, hq, hstart, hstop, hij, hj⟩
    · rcases h.captures c hold with hold | ⟨q, i, j, hq, hstart, hstop, hij, hj⟩
      · exact Or.inl hold
      · exact Or.inr ⟨q, i, j, List.mem_append_left _ hq, hstart, hstop, hij, by omega⟩
    · -- the group was read behind `k` characters
      refine Or.inr ⟨q, k + i, k + j, List.mem_append_right _ hq, ?_, ?_, by omega, by omega⟩
      · rw [hstart, h.cursor, Cursor.advance_advance]
      · rw [hstop, h.cursor, Cursor.advance_advance]

/-- A group remembers what was read. -/
theorem group {p : Pattern} (label : Label) (h : Moves p.minWidth G r s k) :
    Moves p.minWidth ((label, p) :: G) r
      ⟨s.cursor, ⟨label, r.cursor, s.cursor⟩ :: s.captures⟩ k := by
  refine ⟨h.width_le, h.le_length, h.cursor, fun c hc => ?_⟩
  rcases List.mem_cons.1 hc with rfl | hc
  · have hw := h.width_le
    exact Or.inr ⟨p, 0, k, List.mem_cons_self, by simp, h.cursor, by omega, Nat.le_refl k⟩
  · rcases h.captures c hc with hold | ⟨q, i, j, hq, hrest⟩
    · exact Or.inl hold
    · exact Or.inr ⟨q, i, j, List.mem_cons_of_mem _ hq, hrest⟩

end Moves

variable {limit : Nat} {r s : Reading}

/-- A step repeated is not made at all, or made once and repeated. -/
theorem mem_repeated_succ {order : Order} {step : Reading → List Reading} {n : Nat}
    (h : s ∈ repeated order step (n + 1) r) :
    s = r ∨ ∃ u ∈ step r, s ∈ repeated order step n u := by
  cases order with
  | longest =>
    simp only [repeated, List.mem_append, List.mem_flatMap, List.mem_singleton] at h
    exact h.symm
  | shortest =>
    simp only [repeated, List.mem_cons, List.mem_flatMap] at h
    exact h

/-- What a repeated step does, from what the step does. -/
theorem repeated_moves {order : Order} {G : List (Label × Pattern)} {step : Reading → List Reading}
    (hstep : ∀ r s, s ∈ step r → ∃ k, Moves 0 G r s k) :
    ∀ n r s, s ∈ repeated order step n r → ∃ k, Moves 0 G r s k := by
  intro n
  induction n with
  | zero =>
    intro r s hs
    rw [repeated, List.mem_singleton] at hs
    subst hs
    exact ⟨0, Moves.refl s⟩
  | succ n ih =>
    intro r s hs
    rcases mem_repeated_succ hs with rfl | ⟨u, hu, hs⟩
    · exact ⟨0, Moves.refl s⟩
    · obtain ⟨k, hk⟩ := hstep r u hu
      obtain ⟨k', hk'⟩ := ih u s hs
      exact ⟨k + k', (hk.trans hk').weaken (Nat.le_refl 0) (by simp)⟩

theorem passText?_moves {chars : Text} {c : Cursor} {G : List (Label × Pattern)}
    (h : r.cursor.passText? chars = some c) :
    Moves chars.length G r ⟨c, r.captures⟩ chars.length := by
  rw [Cursor.passText?_eq] at h
  split at h
  · rename_i hpre
    obtain rfl := Option.some.inj h
    exact Moves.step hpre.length_le
  · simp at h

/-- **Every outcome of a pattern moves as the pattern says.** -/
theorem exists_moves (p : Pattern) :
    ∀ r s, s ∈ p.outcomes limit r → ∃ k, Moves p.minWidth p.groups r s k := by
  induction p with
  | empty =>
    intro r s hs
    rw [outcomes, List.mem_singleton] at hs
    exact ⟨0, hs ▸ Moves.refl r⟩
  | one accepts =>
    intro r s hs
    rw [outcomes, Cursor.pass?_eq] at hs
    split at hs
    · rename_i hnext
      simp only [Option.map_some, Option.toList_some, List.mem_singleton] at hs
      have hlen : 1 ≤ r.cursor.after.length := by
        unfold Cursor.nextIs at hnext
        cases hafter : r.cursor.after with
        | nil => rw [hafter] at hnext; simp at hnext
        | cons x rest => simp
      exact ⟨1, hs ▸ Moves.step hlen⟩
    · simp at hs
  | text chars =>
    intro r s hs
    rw [outcomes] at hs
    simp only [Option.mem_toList, Option.map_eq_some_iff] at hs
    obtain ⟨c, hc, rfl⟩ := hs
    exact ⟨_, passText?_moves hc⟩
  | seq p q ihp ihq =>
    intro r s hs
    rw [outcomes, List.mem_flatMap] at hs
    obtain ⟨u, hu, hs⟩ := hs
    obtain ⟨k, hk⟩ := ihp r u hu
    obtain ⟨k', hk'⟩ := ihq u s hs
    exact ⟨k + k', hk.trans hk'⟩
  | alt p q ihp ihq =>
    intro r s hs
    rw [outcomes, List.mem_append] at hs
    rcases hs with hs | hs
    · obtain ⟨k, hk⟩ := ihp r s hs
      exact ⟨k, hk.weaken (Nat.min_le_left _ _) fun g hg => List.mem_append_left _ hg⟩
    · obtain ⟨k, hk⟩ := ihq r s hs
      exact ⟨k, hk.weaken (Nat.min_le_right _ _) fun g hg => List.mem_append_right _ hg⟩
  | span accepts =>
    intro r s hs
    rw [outcomes, Cursor.reaches] at hs
    simp only [List.mem_map, List.mem_reverse, List.mem_range] at hs
    obtain ⟨c, ⟨k, hk, rfl⟩, rfl⟩ := hs
    have hlen : (r.cursor.after.takeWhile accepts).length ≤ r.cursor.after.length :=
      (List.takeWhile_sublist _).length_le
    exact ⟨k, (Moves.step (by omega)).weaken (Nat.zero_le k) fun g hg => hg⟩
  | many order p ih =>
    intro r s hs
    apply repeated_moves _ limit r s hs
    intro r s hs
    obtain ⟨k, hk⟩ := ih r s hs
    exact ⟨k, hk.weaken (Nat.zero_le _) fun g hg => hg⟩
  | group label p ih =>
    intro r s hs
    rw [outcomes, List.mem_map] at hs
    obtain ⟨u, hu, rfl⟩ := hs
    obtain ⟨k, hk⟩ := ih r u hu
    exact ⟨k, hk.group label⟩
  | again label =>
    intro r s hs
    rw [outcomes] at hs
    split at hs
    · simp at hs
    · simp only [Option.mem_toList, Option.map_eq_some_iff] at hs
      obtain ⟨c, hc, rfl⟩ := hs
      exact ⟨_, (passText?_moves hc).weaken (Nat.zero_le _) fun g hg => hg⟩
  | ahead p _ | notAhead p _ | behind a | notBehind a | edge | lineStart | lineEnd | textEnd =>
    intro r s hs
    rw [outcomes] at hs
    split at hs
    all_goals
      simp only [List.mem_singleton, List.not_mem_nil] at hs
      try exact ⟨0, hs ▸ Moves.refl r⟩

end CodeSurvey.Pattern
