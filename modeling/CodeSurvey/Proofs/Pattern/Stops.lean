import CodeSurvey.Proofs.Pattern.Excerpt

/-!
# Where the readings of a pattern stop

A pattern that never asks for the text of a group reads alike whatever its groups hold. Its readings are
then told by the cursors where they stop: a sequence of shapes is a `flatMap` over cursors, and a group
changes nothing.

* `recalls`: a pattern asks for the text of a group.
* `stops`: the cursors where the readings stop, in the order in which they are tried.
* `map_cursor_outcomes`: they do not depend on what groups hold.
* `mem_outcomes_text`, `mem_outcomes_span`, `mem_outcomes_words`: readings of one shape.
* `mem_outcomes_ahead`, `mem_outcomes_notAhead`, `mem_outcomes_notBehind`: what tests let through.
* `mem_stops_seq`, `mem_stops_text`, `mem_stops_span`, `mem_stops_edge`: where they stop.
* `foundIn_iff_stops`: a pattern is found if and only if some reading stops.
-/

namespace CodeSurvey

namespace Cursor

theorem nextIs_ofPlace (accepts : Char → Bool) (t : Text) (i : Nat) :
    (ofPlace t i).nextIs accepts = t[i]?.any accepts := by
  rw [nextIs, ofPlace_after, ← List.head?_drop]
  cases t.drop i <;> rfl

theorem lastIs_ofPlace (accepts : Char → Bool) {t : Text} {i : Nat} (h : i < t.length) :
    (ofPlace t (i + 1)).lastIs accepts = t[i]?.any accepts := by
  rw [lastIs, ofPlace_before, List.take_succ_eq_append_getElem h, List.reverse_append,
    List.getElem?_eq_getElem h]
  rfl

theorem ofPlace_advance (t : Text) (i n : Nat) : (ofPlace t i).advance n = ofPlace t (i + n) := by
  apply eq_of_parts
  · rw [advance_before, ofPlace_before, ofPlace_before, ofPlace_after, List.take_add,
      List.reverse_append]
  · rw [advance_after, ofPlace_after, ofPlace_after, List.drop_drop]

theorem follows_singleton (accepts : Char → Bool) (c : Cursor) :
    c.follows [accepts] = false ↔ ∀ x ∈ c.before.head?, accepts x = false := by
  unfold follows
  cases c.before with
  | nil => simp [follows.go]
  | cons x rest => simp [follows.go]

end Cursor

namespace Pattern

variable {limit : Nat} {p q : Pattern} {c d : Cursor} {r r' s : Reading} {t x : Text}

/-- Whether a pattern asks for the text of a group. -/
def recalls : Pattern → Bool
  | .again _ => true
  | .seq p q | .alt p q => p.recalls || q.recalls
  | .many _ p | .group _ p | .ahead p | .notAhead p => p.recalls
  | _ => false

/-- The cursors where the readings of a pattern stop, in the order in which they are tried. -/
def stops (limit : Nat) (p : Pattern) (c : Cursor) : List Cursor :=
  (p.outcomes limit ⟨c, []⟩).map (·.cursor)

/-! ## What groups hold does not matter -/

theorem map_cursor_flatMap {f g : Reading → List Reading} :
    ∀ {l l' : List Reading}, l.map (·.cursor) = l'.map (·.cursor) →
      (∀ r r' : Reading, r.cursor = r'.cursor → (f r).map (·.cursor) = (g r').map (·.cursor)) →
      (l.flatMap f).map (·.cursor) = (l'.flatMap g).map (·.cursor) := by
  intro l
  induction l with
  | nil =>
    intro l' hl _
    rw [List.map_nil, eq_comm, List.map_eq_nil_iff] at hl
    rw [hl]
    rfl
  | cons r l ih =>
    intro l' hl hfg
    cases l' with
    | nil => simp at hl
    | cons r' l' =>
      rw [List.map_cons, List.map_cons, List.cons.injEq] at hl
      rw [List.flatMap_cons, List.flatMap_cons, List.map_append, List.map_append, hfg r r' hl.1,
        ih hl.2 hfg]

theorem map_cursor_repeated {order : Order} {step : Reading → List Reading}
    (hstep : ∀ r r' : Reading, r.cursor = r'.cursor →
      (step r).map (·.cursor) = (step r').map (·.cursor)) :
    ∀ n (r r' : Reading), r.cursor = r'.cursor →
      (repeated order step n r).map (·.cursor) = (repeated order step n r').map (·.cursor) := by
  intro n
  induction n with
  | zero =>
    intro r r' h
    simp [repeated, h]
  | succ n ih =>
    intro r r' h
    have hrest := map_cursor_flatMap (hstep r r' h) ih
    cases order <;> simp only [repeated, List.map_append, List.map_cons, List.map_nil, hrest, h]

/-- Readings with one cursor go on to the same cursors. -/
theorem map_cursor_congr (p : Pattern) : p.recalls = false → ∀ r r' : Reading,
    r.cursor = r'.cursor →
      (p.outcomes limit r).map (·.cursor) = (p.outcomes limit r').map (·.cursor) := by
  induction p with
  | one accepts =>
    intro _ r r' h
    rw [outcomes, outcomes, h]
    cases r'.cursor.pass? accepts <;> rfl
  | text chars =>
    intro _ r r' h
    rw [outcomes, outcomes, h]
    cases r'.cursor.passText? chars <;> rfl
  | seq p q ihp ihq =>
    intro hp r r' h
    simp only [recalls, Bool.or_eq_false_iff] at hp
    exact map_cursor_flatMap (ihp hp.1 r r' h) (ihq hp.2)
  | alt p q ihp ihq =>
    intro hp r r' h
    simp only [recalls, Bool.or_eq_false_iff] at hp
    rw [outcomes, outcomes, List.map_append, List.map_append, ihp hp.1 r r' h, ihq hp.2 r r' h]
  | span accepts =>
    intro _ r r' h
    rw [outcomes, outcomes, h, List.map_map, List.map_map]
    rfl
  | many order p ih =>
    intro hp r r' h
    exact map_cursor_repeated (ih hp) limit r r' h
  | group label p ih =>
    intro hp r r' h
    rw [outcomes, outcomes, List.map_map, List.map_map]
    exact ih hp r r' h
  | again label =>
    intro hp
    simp [recalls] at hp
  | ahead p ih | notAhead p ih =>
    intro hp r r' h
    have hempty : (p.outcomes limit r).isEmpty = (p.outcomes limit r').isEmpty := by
      rw [← List.isEmpty_map (f := fun s : Reading => s.cursor), ih hp r r' h, List.isEmpty_map]
    rw [outcomes, outcomes, hempty]
    split <;> simp [h]
  | empty =>
    intro _ r r' h
    simp [outcomes, h]
  | behind a | notBehind a | edge | lineStart | lineEnd | textEnd =>
    intro _ r r' h
    rw [outcomes, outcomes, h]
    split <;> simp [h]

/-- **The readings of a pattern that recalls nothing stop at the same cursors, whatever groups hold.** -/
theorem map_cursor_outcomes (hp : p.recalls = false) (r : Reading) :
    (p.outcomes limit r).map (·.cursor) = p.stops limit r.cursor :=
  map_cursor_congr p hp r ⟨r.cursor, []⟩ rfl

theorem isEmpty_outcomes (hp : p.recalls = false) (r : Reading) :
    (p.outcomes limit r).isEmpty = (p.stops limit r.cursor).isEmpty := by
  rw [← map_cursor_outcomes hp, List.isEmpty_map]

/-! ## Outcomes, shape by shape -/

theorem mem_outcomes_text : s ∈ (text x).outcomes limit r ↔ x <+: r.cursor.after ∧ s = r.past x := by
  rw [outcomes_text]
  split
  · rename_i h
    simp [h, Reading.past]
  · rename_i h
    simp [h]

theorem mem_outcomes_one {accepts : Char → Bool} : s ∈ (one accepts).outcomes limit r ↔
    ∃ ch, accepts ch = true ∧ [ch] <+: r.cursor.after ∧ s = r.past [ch] := by
  rw [outcomes_one, Cursor.nextIs]
  cases r.cursor.after with
  | nil => simp
  | cons ch y =>
    by_cases h : accepts ch = true
    · rw [if_pos h, List.mem_singleton]
      constructor
      · rintro rfl
        exact ⟨ch, h, by simp, rfl⟩
      · rintro ⟨-, -, -, rfl⟩
        rfl
    · rw [if_neg h]
      simp only [List.not_mem_nil, false_iff]
      rintro ⟨d, hd, hpre, -⟩
      obtain rfl : d = ch := by simpa using hpre
      exact h hd

/-- A span goes past any number of accepted characters. -/
theorem mem_outcomes_span {accepts : Char → Bool} : s ∈ (span accepts).outcomes limit r ↔
    ∃ x, (∀ ch ∈ x, accepts ch = true) ∧ x <+: r.cursor.after ∧ s = r.past x := by
  rw [outcomes, Cursor.reaches]
  simp only [List.mem_map, List.mem_reverse, List.mem_range]
  constructor
  · rintro ⟨-, ⟨k, hk, rfl⟩, rfl⟩
    refine ⟨(r.cursor.after.takeWhile accepts).take k, fun ch hch => ?_, ?_, ?_⟩
    · exact List.mem_takeWhile_imp (List.mem_of_mem_take hch)
    · have htake := List.take_prefix k (r.cursor.after.takeWhile accepts)
      exact htake.trans ( List.takeWhile_prefix accepts)
    · rw [Reading.past, List.length_take, Nat.min_eq_left (by omega)]
  · rintro ⟨x, hx, ⟨y, hy⟩, rfl⟩
    refine ⟨_, ⟨x.length, ?_, rfl⟩, rfl⟩
    rw [← hy, List.takeWhile_append_of_pos hx, List.length_append]
    omega

theorem mem_outcomes_edge : s ∈ edge.outcomes limit r ↔ r.cursor.atEdge = true ∧ s = r := by
  rw [outcomes]
  split
  · rename_i h
    simp [h]
  · rename_i h
    simp [h]

theorem mem_outcomes_ahead : s ∈ (ahead p).outcomes limit r ↔ (∃ u, u ∈ p.outcomes limit r) ∧ s = r := by
  rw [outcomes]
  cases h : p.outcomes limit r with
  | nil => simp
  | cons u l =>
    rw [List.isEmpty_cons, if_neg Bool.false_ne_true, List.mem_singleton]
    exact ⟨fun hs => ⟨⟨u, List.mem_cons_self⟩, hs⟩, fun hs => hs.2⟩

theorem mem_outcomes_notAhead : s ∈ (notAhead p).outcomes limit r ↔ (∀ u, u ∉ p.outcomes limit r) ∧ s = r := by
  rw [outcomes]
  cases h : p.outcomes limit r with
  | nil => simp
  | cons u l =>
    rw [List.isEmpty_cons, if_neg Bool.false_ne_true]
    simp only [List.not_mem_nil, false_iff]
    exact fun hs => hs.1 u List.mem_cons_self

theorem mem_outcomes_notBehind {accepts : Char → Bool} : s ∈ (notBehind [accepts]).outcomes limit r ↔
    (∀ ch ∈ r.cursor.before.head?, accepts ch = false) ∧ s = r := by
  rw [outcomes, List.reverse_singleton, ← Cursor.follows_singleton]
  split
  · rename_i h
    simp [h]
  · rename_i h
    simp [h]

theorem notMem_outcomes_one {accepts : Char → Bool} : (∀ u, u ∉ (one accepts).outcomes limit r) ↔
    ∀ ch ∈ r.cursor.after.head?, accepts ch = false := by
  rw [← List.eq_nil_iff_forall_not_mem, outcomes_one, Cursor.nextIs]
  cases r.cursor.after with
  | nil => simp
  | cons ch y => by_cases h : accepts ch = true <;> simp [h]

theorem mem_outcomes_textEnd : s ∈ textEnd.outcomes limit r ↔ r.cursor.after = [] ∧ s = r := by
  rw [outcomes]
  split
  · rename_i h
    simp [List.isEmpty_iff.1 h]
  · rename_i h
    have hne : r.cursor.after ≠ [] := fun hnil => h (by rw [hnil]; rfl)
    simp [hne]

/-- One of several words is passed. -/
theorem mem_outcomes_words : ∀ {l : List String}, l ≠ [] → (s ∈ (words l).outcomes limit r ↔
    ∃ w ∈ l, w.toList <+: r.cursor.after ∧ s = r.past w.toList)
  | [], hl => absurd rfl hl
  | [w], _ => by
    rw [words, lit, mem_outcomes_text]
    simp
  | w :: w' :: l, _ => by
    have halt : s ∈ (words (w :: w' :: l)).outcomes limit r
        ↔ s ∈ (lit w).outcomes limit r ∨ s ∈ (words (w' :: l)).outcomes limit r :=
      List.mem_append
    rw [halt, mem_outcomes_words (List.cons_ne_nil _ _), lit, mem_outcomes_text]
    simp only [List.mem_cons, exists_eq_or_imp]

/-- A group remembers which of several words is passed. -/
theorem mem_outcomes_group_words {l : List String} (hl : l ≠ []) (label : Label) :
    s ∈ (group label (words l)).outcomes limit r ↔
      ∃ w ∈ l, w.toList <+: r.cursor.after ∧ s = r.mark label w.toList := by
  rw [outcomes, List.mem_map]
  constructor
  · rintro ⟨u, hu, rfl⟩
    obtain ⟨w, hw, hpre, rfl⟩ := (mem_outcomes_words hl).1 hu
    exact ⟨w, hw, hpre, rfl⟩
  · rintro ⟨w, hw, hpre, rfl⟩
    exact ⟨_, (mem_outcomes_words hl).2 ⟨w, hw, hpre, rfl⟩, rfl⟩

/-- Every outcome stands behind a text that the pattern spells. -/
theorem exists_spelled_advance (hs : s ∈ p.outcomes limit r) : ∃ x, p.Spelled x ∧
    r.cursor.after = x ++ s.cursor.after ∧ s.cursor = r.cursor.advance x.length := by
  obtain ⟨k, hk⟩ := exists_moves p r s hs
  obtain ⟨x, hx, hafter, hplace⟩ := exists_spelled_place hs
  have hmove := r.cursor.advance_place hk.le_length
  rw [hk.cursor] at hplace
  refine ⟨x, hx, hafter, ?_⟩
  rw [hk.cursor, show k = x.length by omega]

/-! ## Stops, shape by shape -/

theorem stops_seq (hq : q.recalls = false) (c : Cursor) :
    (p ++ q).stops limit c = (p.stops limit c).flatMap (q.stops limit) := by
  rw [stops, outcomes_append, List.map_flatMap, stops, List.flatMap_map]
  exact List.flatMap_congr fun s _ => map_cursor_outcomes hq s

theorem mem_stops_seq (hq : q.recalls = false) :
    d ∈ (p ++ q).stops limit c ↔ ∃ e ∈ p.stops limit c, d ∈ q.stops limit e := by
  rw [stops_seq hq, List.mem_flatMap]

theorem mem_stops : d ∈ p.stops limit c ↔ ∃ s ∈ p.outcomes limit ⟨c, []⟩, s.cursor = d := by
  rw [stops, List.mem_map]

theorem mem_stops_alt :
    d ∈ (p <|> q).stops limit c ↔ d ∈ p.stops limit c ∨ d ∈ q.stops limit c := by
  have hstops : (p <|> q).stops limit c = p.stops limit c ++ q.stops limit c := List.map_append
  rw [hstops, List.mem_append]

theorem mem_stops_text :
    d ∈ (text x).stops limit c ↔ x <+: c.after ∧ d = c.advance x.length := by
  simp only [mem_stops, mem_outcomes_text]
  constructor
  · rintro ⟨s, ⟨hx, rfl⟩, rfl⟩
    exact ⟨hx, rfl⟩
  · rintro ⟨hx, rfl⟩
    exact ⟨_, ⟨hx, rfl⟩, rfl⟩

/-- A span stops behind any number of accepted characters. -/
theorem mem_stops_span {accepts : Char → Bool} : d ∈ (span accepts).stops limit c ↔
    ∃ x, (∀ ch ∈ x, accepts ch = true) ∧ x <+: c.after ∧ d = c.advance x.length := by
  simp only [mem_stops, mem_outcomes_span]
  constructor
  · rintro ⟨s, ⟨x, hx, hpre, rfl⟩, rfl⟩
    exact ⟨x, hx, hpre, rfl⟩
  · rintro ⟨x, hx, hpre, rfl⟩
    exact ⟨_, ⟨x, hx, hpre, rfl⟩, rfl⟩

theorem mem_stops_words {l : List String} (hl : l ≠ []) : d ∈ (words l).stops limit c ↔
    ∃ w ∈ l, w.toList <+: c.after ∧ d = c.advance w.toList.length := by
  simp only [mem_stops, mem_outcomes_words hl]
  constructor
  · rintro ⟨s, ⟨w, hw, hpre, rfl⟩, rfl⟩
    exact ⟨w, hw, hpre, rfl⟩
  · rintro ⟨w, hw, hpre, rfl⟩
    exact ⟨_, ⟨w, hw, hpre, rfl⟩, rfl⟩

theorem mem_stops_edge : d ∈ edge.stops limit c ↔ c.atEdge = true ∧ d = c := by
  simp only [mem_stops, mem_outcomes_edge]
  constructor
  · rintro ⟨s, ⟨hedge, rfl⟩, rfl⟩
    exact ⟨hedge, rfl⟩
  · rintro ⟨hedge, rfl⟩
    exact ⟨_, ⟨hedge, rfl⟩, rfl⟩

theorem mem_stops_empty : d ∈ empty.stops limit c ↔ d = c := by
  simp [mem_stops, outcomes, eq_comm]

theorem mem_stops_lineStart : d ∈ lineStart.stops limit c ↔ c.atLineStart = true ∧ d = c := by
  by_cases h : c.atLineStart = true <;> simp [mem_stops, outcomes, h, eq_comm]

/-- Two texts are passed as one. -/
theorem mem_stops_text_append {y : Text} :
    d ∈ (text x ++ text y).stops limit c ↔ d ∈ (text (x ++ y)).stops limit c := by
  simp only [mem_stops_seq (show (text y).recalls = false from rfl), mem_stops_text]
  constructor
  · rintro ⟨-, ⟨⟨z, hz⟩, rfl⟩, hy, rfl⟩
    rw [Cursor.advance_after, ← hz, List.drop_left] at hy
    rw [← hz, List.prefix_append_right_inj, Cursor.advance_advance, List.length_append]
    exact ⟨hy, rfl⟩
  · rintro ⟨⟨z, hz⟩, rfl⟩
    rw [List.append_assoc] at hz
    refine ⟨_, ⟨⟨_, hz⟩, rfl⟩, ?_, ?_⟩
    · rw [Cursor.advance_after, ← hz, List.drop_left]
      exact List.prefix_append y z
    · rw [Cursor.advance_advance, List.length_append]

/-! ## Stops at places of a text -/

theorem prefix_drop_iff {i : Nat} : x <+: t.drop i ↔ Text.slice t i (i + x.length) = x := by
  rw [List.prefix_iff_eq_take, Text.slice, Nat.add_sub_cancel_left, eq_comm]

theorem mem_stops_text_ofPlace {i : Nat} : d ∈ (text x).stops limit (Cursor.ofPlace t i) ↔
    Text.slice t i (i + x.length) = x ∧ d = Cursor.ofPlace t (i + x.length) := by
  rw [mem_stops_text, Cursor.ofPlace_after, prefix_drop_iff, Cursor.ofPlace_advance]

theorem mem_stops_span_ofPlace {accepts : Char → Bool} {i : Nat} (hi : i ≤ t.length) :
    d ∈ (span accepts).stops limit (Cursor.ofPlace t i) ↔ ∃ j, i ≤ j ∧ j ≤ t.length ∧
      (∀ ch ∈ Text.slice t i j, accepts ch = true) ∧ d = Cursor.ofPlace t j := by
  rw [mem_stops_span]
  constructor
  · rintro ⟨x, hx, hpre, rfl⟩
    have hlen := hpre.length_le
    rw [Cursor.ofPlace_after, List.length_drop] at hlen
    rw [Cursor.ofPlace_after, prefix_drop_iff] at hpre
    refine ⟨i + x.length, by omega, by omega, ?_, Cursor.ofPlace_advance t i x.length⟩
    rwa [hpre]
  · rintro ⟨j, hij, hj, hall, rfl⟩
    have hlen : (Text.slice t i j).length = j - i := by
      rw [Text.slice, List.length_take, List.length_drop]
      omega
    refine ⟨Text.slice t i j, hall, List.take_prefix _ _, ?_⟩
    rw [Cursor.ofPlace_advance, hlen, Nat.add_sub_cancel' hij]

/-! ## Matches -/

/-- **A pattern is found if and only if some reading stops.** -/
theorem foundIn_iff_stops (p : Pattern) (t : Text) : p.foundIn t = true ↔
    ∃ k ≤ t.length, ∃ d, d ∈ p.stops t.length (Cursor.ofPlace t k) := by
  rw [foundIn_iff]
  simp only [stops, List.mem_map]
  constructor
  · rintro ⟨k, hk, s, hs⟩
    exact ⟨k, hk, s.cursor, s, hs, rfl⟩
  · rintro ⟨k, hk, d, s, hs, -⟩
    exact ⟨k, hk, s, hs⟩

end Pattern

end CodeSurvey
