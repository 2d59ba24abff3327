import CodeSurvey.Proofs.Pattern.Stops

/-!
# Patterns that ask for the text of a group

A group remembers a text, and a later shape asks for the same text once more. As long as no other group is
read, what is asked for does not change: the shape can be replaced by the text itself, and the pattern recalls
nothing any more.

* `Reading.held`: the text a group holds. `fill`: a pattern with these texts written out.
* `captures_of_mem_outcomes`: a pattern without groups leaves what groups hold as it is.
* `outcomes_fill`: its readings are those of the pattern with the texts written out.
* `mem_outcomes_iff`: without groups, readings are told by where they stop.
* `mem_stops_many`: a repetition, if each step leads from one place of a row to the next.
-/

namespace CodeSurvey

theorem Reading.ext {r s : Reading} (hcursor : r.cursor = s.cursor) (hcaptures : r.captures = s.captures) :
    r = s := by
  cases r
  cases s
  simp_all

/-- The text that a group holds. -/
def Reading.held (r : Reading) (label : Label) : Option Text :=
  (r.capture? label).map Capture.text

namespace Pattern

variable {limit : Nat} {p : Pattern} {c d : Cursor} {r s : Reading} {x y : Text} {label : Label}

/-- A pattern with the texts of groups written out, outside of tests. -/
def fill (held : Label → Option Text) : Pattern → Pattern
  | .again label =>
    match held label with
    | some x => .text x
    | none => .one fun _ => false
  | .seq p q => .seq (p.fill held) (q.fill held)
  | .alt p q => .alt (p.fill held) (q.fill held)
  | .many order p => .many order (p.fill held)
  | .group label p => .group label (p.fill held)
  | p => p

/-! ## What groups hold -/

theorem held_mark (label : Label) (hx : x <+: r.cursor.after) :
    (r.mark label x).held label = some x := by
  have hplace := r.cursor.advance_place hx.length_le
  simp only [Reading.held, Reading.capture?, Reading.mark, List.find?_cons, decide_true, Option.map_some,
    Capture.text, hplace, Nat.add_sub_cancel_left, Option.some.injEq]
  exact (List.prefix_iff_eq_take.1 hx).symm

theorem held_mark_of_ne {other : Label} (h : label ≠ other) (r : Reading) (x : Text) :
    (r.mark label x).held other = r.held other := by
  simp [Reading.held, Reading.capture?, Reading.mark, h]

theorem held_congr (h : s.captures = r.captures) : s.held = r.held := by
  unfold Reading.held Reading.capture?
  rw [h]

/-! ## Patterns without groups -/

theorem captures_of_mem_repeated {order : Order} {step : Reading → List Reading}
    (hstep : ∀ r s, s ∈ step r → s.captures = r.captures) :
    ∀ n r s, s ∈ repeated order step n r → s.captures = r.captures := by
  intro n
  induction n with
  | zero =>
    intro r s hs
    rw [repeated, List.mem_singleton] at hs
    rw [hs]
  | succ n ih =>
    intro r s hs
    rcases mem_repeated_succ hs with rfl | ⟨u, hu, hs⟩
    · rfl
    · exact (ih u s hs).trans (hstep r u hu)

/-- **A pattern without groups leaves what groups hold as it is.** -/
theorem captures_of_mem_outcomes (p : Pattern) : p.groups = [] → ∀ r s, s ∈ p.outcomes limit r →
    s.captures = r.captures := by
  induction p with
  | one accepts =>
    intro _ r s hs
    obtain ⟨ch, -, -, rfl⟩ := mem_outcomes_one.1 hs
    rfl
  | text chars =>
    intro _ r s hs
    obtain ⟨-, rfl⟩ := mem_outcomes_text.1 hs
    rfl
  | span accepts =>
    intro _ r s hs
    obtain ⟨x, -, -, rfl⟩ := mem_outcomes_span.1 hs
    rfl
  | seq p q ihp ihq =>
    intro hp r s hs
    obtain ⟨hp, hq⟩ := List.append_eq_nil_iff.1 hp
    obtain ⟨u, hu, hs⟩ := List.mem_flatMap.1 hs
    exact (ihq hq u s hs).trans (ihp hp r u hu)
  | alt p q ihp ihq =>
    intro hp r s hs
    obtain ⟨hp, hq⟩ := List.append_eq_nil_iff.1 hp
    rcases List.mem_append.1 hs with hs | hs
    · exact ihp hp r s hs
    · exact ihq hq r s hs
  | many order p ih =>
    intro hp r s hs
    exact captures_of_mem_repeated (ih hp) limit r s hs
  | group label p _ =>
    intro hp
    cases hp
  | again label =>
    intro _ r s hs
    rw [outcomes] at hs
    cases hcapture : r.capture? label with
    | none =>
      rw [hcapture] at hs
      cases hs
    | some capture =>
      rw [hcapture] at hs
      obtain ⟨-, rfl⟩ := mem_outcomes_text.1 (show s ∈ (text capture.text).outcomes limit r from hs)
      rfl
  | empty =>
    intro _ r s hs
    rw [List.mem_singleton.1 hs]
  | ahead p _ | notAhead p _ | behind a | notBehind a | edge | lineStart | lineEnd | textEnd =>
    intro _ r s hs
    rw [outcomes] at hs
    split at hs
    all_goals
      simp only [List.mem_singleton, List.not_mem_nil] at hs
      try rw [hs]

/-- Two steps that agree while groups hold the same texts are repeated alike. -/
theorem repeated_congr {order : Order} {step step' : Reading → List Reading} {captures : List Capture}
    (hkeep : ∀ r s, s ∈ step r → s.captures = r.captures)
    (hstep : ∀ r, r.captures = captures → step r = step' r) :
    ∀ n r, r.captures = captures → repeated order step n r = repeated order step' n r := by
  intro n
  induction n with
  | zero =>
    intro r _
    rfl
  | succ n ih =>
    intro r hr
    have hrest : (step r).flatMap (repeated order step n) = (step' r).flatMap (repeated order step' n) := by
      rw [← hstep r hr]
      exact List.flatMap_congr fun s hs => ih s ((hkeep r s hs).trans hr)
    cases order <;> simp only [repeated, hrest]

/-- **The readings of a pattern without groups are those of the pattern with the texts of groups written
out.** -/
theorem outcomes_fill (p : Pattern) : p.groups = [] → ∀ r : Reading,
    p.outcomes limit r = (p.fill r.held).outcomes limit r := by
  induction p with
  | seq p q ihp ihq =>
    intro hp r
    obtain ⟨hp, hq⟩ := List.append_eq_nil_iff.1 hp
    rw [outcomes, fill, outcomes, ← ihp hp]
    refine List.flatMap_congr fun s hs => ?_
    rw [ihq hq s, held_congr (captures_of_mem_outcomes p hp r s hs)]
  | alt p q ihp ihq =>
    intro hp r
    obtain ⟨hp, hq⟩ := List.append_eq_nil_iff.1 hp
    rw [outcomes, fill, outcomes, ← ihp hp, ← ihq hq]
  | many order p ih =>
    intro hp r
    rw [outcomes, fill, outcomes]
    refine repeated_congr (captures_of_mem_outcomes p hp) (fun s hs => ?_) limit r rfl
    rw [ih hp s, held_congr hs]
  | group label p _ =>
    intro hp
    cases hp
  | again label =>
    intro _ r
    rw [outcomes, fill, Reading.held]
    cases r.capture? label with
    | some capture => rfl
    | none =>
      have hnext : r.cursor.nextIs (fun _ => false) = false := by
        unfold Cursor.nextIs
        cases r.cursor.after <;> rfl
      show [] = (one fun _ => false).outcomes limit r
      rw [outcomes_one, hnext]
      rfl
  | _ =>
    intro _ r
    rfl

theorem fill_again {held : Label → Option Text} (h : held label = some x) :
    (again label).fill held = text x := by
  simp [fill, h]

/-- The readings of a pattern that has no groups and recalls nothing are told by where they stop. -/
theorem mem_outcomes_iff (hp : p.groups = []) (hrecalls : p.recalls = false) :
    s ∈ p.outcomes limit r ↔ s.cursor ∈ p.stops limit r.cursor ∧ s.captures = r.captures := by
  rw [← map_cursor_outcomes hrecalls, List.mem_map]
  constructor
  · intro hs
    exact ⟨⟨s, hs, rfl⟩, captures_of_mem_outcomes p hp r s hs⟩
  · rintro ⟨⟨u, hu, hcursor⟩, hcaptures⟩
    have hkept := captures_of_mem_outcomes p hp r u hu
    rwa [Reading.ext hcursor (hkept.trans hcaptures.symm)] at hu

/-- A group remembers what is read, from its start to where the reading stops. -/
theorem mem_outcomes_group (hp : p.groups = []) (hrecalls : p.recalls = false) :
    s ∈ (group label p).outcomes limit r ↔
      ∃ d ∈ p.stops limit r.cursor, s = ⟨d, ⟨label, r.cursor, d⟩ :: r.captures⟩ := by
  rw [outcomes, List.mem_map]
  constructor
  · rintro ⟨u, hu, rfl⟩
    obtain ⟨hstop, hcaptures⟩ := (mem_outcomes_iff hp hrecalls).1 hu
    exact ⟨u.cursor, hstop, by rw [hcaptures]⟩
  · rintro ⟨d, hd, rfl⟩
    exact ⟨⟨d, r.captures⟩, (mem_outcomes_iff hp hrecalls).2 ⟨hd, rfl⟩, rfl⟩

theorem exists_outcome_seq {p q : Pattern} : (∃ s, s ∈ (p ++ q).outcomes limit r) ↔
    ∃ u ∈ p.outcomes limit r, ∃ s, s ∈ q.outcomes limit u := by
  simp only [outcomes_append, List.mem_flatMap]
  constructor
  · rintro ⟨s, u, hu, hs⟩
    exact ⟨u, hu, s, hs⟩
  · rintro ⟨u, hu, s, hs⟩
    exact ⟨s, u, hu, hs⟩

theorem exists_outcome_iff_stops (hrecalls : p.recalls = false) :
    (∃ s, s ∈ p.outcomes limit r) ↔ ∃ d, d ∈ p.stops limit r.cursor := by
  simp only [← map_cursor_outcomes hrecalls, List.mem_map]
  constructor
  · rintro ⟨s, hs⟩
    exact ⟨_, s, hs, rfl⟩
  · rintro ⟨-, s, hs, -⟩
    exact ⟨s, hs⟩

/-! ## Repetitions along a row of places -/

/-- A step that leads from each place of a row to the next one leads, repeated, from a place to those behind
it, as far as every step between them can be made. -/
theorem mem_repeated_row {order : Order} {step : Reading → List Reading} {row : Nat → Reading} {size : Nat}
    {Passes : Nat → Prop}
    (hstep : ∀ i < size, ∀ s, s ∈ step (row i) ↔ i + 1 < size ∧ Passes i ∧ s = row (i + 1)) :
    ∀ n, ∀ i < size, ∀ s, s ∈ repeated order step n (row i) ↔
      ∃ j, i ≤ j ∧ j < size ∧ j ≤ i + n ∧ (∀ k, i ≤ k → k < j → Passes k) ∧ s = row j := by
  intro n
  induction n with
  | zero =>
    intro i hi s
    rw [repeated, List.mem_singleton]
    constructor
    · rintro rfl
      exact ⟨i, Nat.le_refl i, hi, Nat.le_refl i, fun k hk hki => by omega, rfl⟩
    · rintro ⟨j, hij, -, hj, -, rfl⟩
      rw [show j = i by omega]
  | succ n ih =>
    intro i hi s
    constructor
    · intro hs
      rcases mem_repeated_succ hs with rfl | ⟨u, hu, hs⟩
      · exact ⟨i, Nat.le_refl i, hi, by omega, fun k hk hki => by omega, rfl⟩
      · obtain ⟨hlt, hpass, rfl⟩ := (hstep i hi u).1 hu
        obtain ⟨j, hij, hj, hjn, hall, rfl⟩ := (ih (i + 1) hlt s).1 hs
        refine ⟨j, by omega, hj, by omega, fun k hk hkj => ?_, rfl⟩
        rcases Nat.eq_or_lt_of_le hk with rfl | hlt
        · exact hpass
        · exact hall k hlt hkj
    · rintro ⟨j, hij, hj, hjn, hall, rfl⟩
      rcases Nat.eq_or_lt_of_le hij with rfl | hlt
      · cases order <;> simp [repeated]
      · have hnext : row (i + 1) ∈ step (row i) :=
          (hstep i hi _).2 ⟨by omega, hall i (Nat.le_refl i) hlt, rfl⟩
        have hrest : row j ∈ repeated order step n (row (i + 1)) :=
          (ih (i + 1) (by omega) (row j)).2
            ⟨j, hlt, hj, by omega, fun k hk hkj => hall k (by omega) hkj, rfl⟩
        cases order
        · exact List.mem_append_left _ (List.mem_flatMap.2 ⟨_, hnext, hrest⟩)
        · exact List.mem_cons_of_mem _ (List.mem_flatMap.2 ⟨_, hnext, hrest⟩)

/-- Where a repetition stops whose steps lead along a row of cursors. -/
theorem mem_stops_many {order : Order} {row : Nat → Cursor} {size i : Nat} {Passes : Nat → Prop}
    (hp : p.groups = []) (hrecalls : p.recalls = false)
    (hstep : ∀ i < size, ∀ d, d ∈ p.stops limit (row i) ↔ i + 1 < size ∧ Passes i ∧ d = row (i + 1))
    (hi : i < size) :
    d ∈ (many order p).stops limit (row i) ↔
      ∃ j, i ≤ j ∧ j < size ∧ j ≤ i + limit ∧ (∀ k, i ≤ k → k < j → Passes k) ∧ d = row j := by
  have hreadings : ∀ i < size, ∀ s, s ∈ p.outcomes limit (⟨row i, []⟩ : Reading) ↔
      i + 1 < size ∧ Passes i ∧ s = ⟨row (i + 1), []⟩ := by
    intro i hi s
    rw [mem_outcomes_iff hp hrecalls, hstep i hi]
    constructor
    · rintro ⟨⟨hlt, hpass, hcursor⟩, hcaptures⟩
      exact ⟨hlt, hpass, Reading.ext hcursor hcaptures⟩
    · rintro ⟨hlt, hpass, rfl⟩
      exact ⟨⟨hlt, hpass, rfl⟩, rfl⟩
  simp only [mem_stops, outcomes, mem_repeated_row hreadings limit i hi]
  constructor
  · rintro ⟨s, ⟨j, hij, hj, hjn, hall, rfl⟩, rfl⟩
    exact ⟨j, hij, hj, hjn, hall, rfl⟩
  · rintro ⟨j, hij, hj, hjn, hall, rfl⟩
    exact ⟨_, ⟨j, hij, hj, hjn, hall, rfl⟩, rfl⟩

end Pattern

end CodeSurvey
