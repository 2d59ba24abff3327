import CodeSurvey.Proofs.Pattern.Excerpt

/-!
# Reading step by step

`Pattern.run` in the form of equations. A text is read character by character; a span and a repetition go on, or stop
where they are. How often a repetition may go on does not matter once it may go on at every character.

* `run_one`, `run_alt`, `run_text_cons`, `run_span`, `run_notBehind`: shape by shape.
* `run_congr`: what a pattern makes of a reading is told by what is made of its outcomes.
* `run_many`: a repetition goes on with itself, or stops.
-/

namespace CodeSurvey

theorem Cursor.length_advance_lt {accepts : Char → Bool} (c : Cursor) (h : c.nextIs accepts = true) :
    (c.advance 1).after.length < c.after.length := by
  unfold Cursor.nextIs at h
  rw [Cursor.advance_after]
  cases hafter : c.after with
  | nil => simp [hafter] at h
  | cons x rest => simp

namespace Pattern

variable {limit : Nat} {p : Pattern} {α : Type} {s r : Reading}

theorem run_one (limit : Nat) (accepts : Char → Bool) (accept : Reading → Option α) (r : Reading) :
    (one accepts).run limit accept r
      = if r.cursor.nextIs accepts then accept ⟨r.cursor.advance 1, r.captures⟩ else none := by
  rw [run, Cursor.pass?_eq]
  by_cases h : r.cursor.nextIs accepts = true
  · rw [if_pos h, if_pos h]
  · rw [if_neg h, if_neg h]

theorem run_alt (limit : Nat) (p q : Pattern) (accept : Reading → Option α) (r : Reading) :
    (alt p q).run limit accept r = (p.run limit accept r).or (q.run limit accept r) := by
  rw [run]
  cases p.run limit accept r <;> rfl

/-- A text is read character by character. -/
theorem run_text_cons (limit : Nat) (ch : Char) (chars : Text) (accept : Reading → Option α) (r : Reading) :
    (text (ch :: chars)).run limit accept r
      = (one fun x => ch == x).run limit ((text chars).run limit accept) r := by
  rw [run_one, run, Cursor.passText?_eq]
  obtain ⟨⟨place, before, after, hplace⟩, captures⟩ := r
  cases after with
  | nil => simp [Cursor.nextIs]
  | cons x rest =>
    by_cases hx : ch = x
    · subst hx
      rw [run, Cursor.passText?_eq]
      simp only [Cursor.nextIs, BEq.rfl, if_true, Cursor.advance_after, List.drop_succ_cons, List.drop_zero,
        List.cons_prefix_cons, true_and, Cursor.advance_advance, List.length_cons]
      by_cases hrest : chars <+: rest
      · rw [if_pos hrest, if_pos hrest, Nat.add_comm 1]
      · rw [if_neg hrest, if_neg hrest]
    · simp [Cursor.nextIs, hx]

/-- A span goes on behind an accepted character, and else stays where it is. -/
theorem run_span (limit : Nat) (accepts : Char → Bool) (accept : Reading → Option α) (r : Reading) :
    (span accepts).run limit accept r
      = if r.cursor.nextIs accepts then
          ((span accepts).run limit accept ⟨r.cursor.advance 1, r.captures⟩).or (accept r)
        else accept r := by
  rw [run, run, Cursor.farthest_eq, Cursor.farthest_eq, Cursor.reaches_step]
  by_cases hnext : r.cursor.nextIs accepts = true
  · rw [if_pos hnext, if_pos hnext, List.findSome?_append]
    congr 1
    simp
  · rw [if_neg hnext, if_neg hnext]
    simp

theorem run_notBehind (limit : Nat) (accepts : Char → Bool) (accept : Reading → Option α) :
    (notBehind [accepts]).run limit accept = fun r => if !r.cursor.lastIs accepts then accept r else none := by
  funext r
  have hlast : r.cursor.follows [accepts] = r.cursor.lastIs accepts := by
    unfold Cursor.follows Cursor.lastIs
    cases r.cursor.before with
    | nil => rfl
    | cons x rest => exact Bool.and_true _
  rw [run, List.reverse_singleton, hlast]
  cases r.cursor.lastIs accepts <;> rfl

theorem length_lt_of_mem_outcomes (hwidth : 0 < p.minWidth) (h : s ∈ p.outcomes limit r) :
    s.cursor.after.length < r.cursor.after.length := by
  obtain ⟨k, hk⟩ := exists_moves p r s h
  have hpos := hk.width_le
  have hroom := hk.le_length
  rw [hk.cursor, Cursor.advance_after, List.length_drop]
  omega

/-- What a pattern makes of a reading is told by what is made of its outcomes. -/
theorem run_congr {accept accept' : Reading → Option α} (h : ∀ u ∈ p.outcomes limit r, accept u = accept' u) :
    p.run limit accept r = p.run limit accept' r := by
  rw [run_eq_findSome?, run_eq_findSome?]
  generalize p.outcomes limit r = l at h
  induction l with
  | nil => rfl
  | cons u l ih =>
    rw [List.findSome?_cons, List.findSome?_cons, h u List.mem_cons_self,
      ih fun v hv => h v (List.mem_cons_of_mem u hv)]

/-- The result of going on and the result of staying, in the order in which they are tried. -/
def pick : Order → Option α → Option α → Option α
  | .longest, further, stay => further.or stay
  | .shortest, further, stay => stay.or further

theorem iterate_succ (order : Order) (step : (Reading → Option α) → Reading → Option α)
    (accept : Reading → Option α) (n : Nat) (r : Reading) :
    iterate order step accept (n + 1) r = pick order (step (iterate order step accept n) r) (accept r) := by
  cases order with
  | longest =>
    rw [iterate]
    cases step (iterate .longest step accept n) r <;> rfl
  | shortest =>
    rw [iterate]
    cases accept r <;> rfl

/-- A further round changes nothing once there is a round for each character left. -/
theorem iterate_stable (hwidth : 0 < p.minWidth) (order : Order) (accept : Reading → Option α) {n : Nat} :
    ∀ r : Reading, r.cursor.after.length ≤ n →
      iterate order (p.run limit) accept n r = iterate order (p.run limit) accept (n + 1) r := by
  induction n with
  | zero =>
    intro r hr
    have hnone : p.run limit (iterate order (p.run limit) accept 0) r = none := by
      rw [run_eq_findSome?, List.findSome?_eq_none_iff]
      intro u hu
      have := length_lt_of_mem_outcomes hwidth hu
      omega
    rw [iterate_succ, hnone, iterate]
    cases order with
    | longest => rfl
    | shortest => exact (Option.or_none).symm
  | succ n ih =>
    intro r hr
    rw [iterate_succ, iterate_succ order _ accept (n + 1)]
    congr 1
    apply run_congr
    intro u hu
    have hlt := length_lt_of_mem_outcomes hwidth hu
    exact ih u (by omega)

/-- **A repetition goes on with itself, or stops.** -/
theorem run_many (hwidth : 0 < p.minWidth) (order : Order) (accept : Reading → Option α)
    (hr : r.cursor.after.length ≤ limit) :
    (many order p).run limit accept r
      = pick order (p.run limit ((many order p).run limit accept) r) (accept r) :=
  (iterate_stable hwidth order accept r hr).trans (iterate_succ order (p.run limit) accept limit r)

end Pattern

end CodeSurvey
